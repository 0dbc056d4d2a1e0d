import Hailcast.Lib.Concurrent

/-!
# A thread on its own

When the others stand still, a thread comes to the end of its program, with the result that the program has under a
handler.
-/

namespace Concurrent

variable {ι Op χ ρ σ ε : Type} {Res : Op → Type} [DecidableEq ι] {T : System ι Op Res χ ρ σ ε} {i : ι}
  {choose : Op → σ → χ} {h : Prog.Handler Op Res ε σ} {J : σ → Prop}

theorem System.step_next {p : Config ι Op Res σ ε} {o : Op} {k : Except ε (Res o) → Prog Op Res ε Unit} {c : χ}
    {r : Except ε (Res o)} {s' : σ} (hk : p.threads i = .act o k) (ha : T.answer i o c p.shared = some (r, s')) :
    T.step p (.act i c) = ⟨Function.update p.threads i (k r), s'⟩ := by
  simp only [System.step, hk]
  rw [ha]

end Concurrent
