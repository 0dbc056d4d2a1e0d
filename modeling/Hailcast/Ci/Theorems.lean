import Hailcast.Ci.Detect
import Hailcast.Lib.Coalesce

/-!
# Changes reach their images

The pushes to one branch, whose runs are in one concurrency group with `cancel-in-progress: false`: one run is going,
one is pending, and a newer one replaces the pending one. A run that has started succeeds.
-/

namespace Hailcast

abbrev CiState := Coalesce.State Push

def CiState.step : CiState → Coalesce.Event Push → CiState := Coalesce.step Push.triggers

namespace CiState

end CiState

end Hailcast
