import Mathlib.Logic.Function.Iterate

/-!
# Repeated attempts

`retry count fn` calls `fn 1`, `fn 2`, … until one of them returns, at most `count` times; when all of them
raise it raises the last exception. Failed attempts keep their effects on the state.
-/

namespace Retry

variable {ε σ α : Type} {m : Type → Type}

def retryFrom [Monad m] [MonadExceptOf ε m] (fn : Nat → m α) : (left attempt : Nat) → (last : ε) → m α
  | 0, _, last => throw last
  | left + 1, attempt, _ => tryCatch (fn attempt) (fun exc => retryFrom fn left (attempt + 1) exc)

/-- `none_raised` is what is raised when there is no attempt at all. -/
def retry [Monad m] [MonadExceptOf ε m] (none_raised : ε) (count : Nat) (fn : Nat → m α) : m α :=
  retryFrom fn count 1 none_raised

theorem tryCatch_run (x : EStateM ε σ α) (h : ε → EStateM ε σ α) (s : σ) :
    (tryCatch x h : EStateM ε σ α) s =
      match x s with
      | .ok a s' => .ok a s'
      | .error e s' => h e s' := by
  change EStateM.tryCatch x h s = _
  unfold EStateM.tryCatch
  cases x s <;> rfl

theorem bind_run {β : Type} (x : EStateM ε σ α) (f : α → EStateM ε σ β) (s : σ) :
    (x >>= f) s =
      match x s with
      | .ok a s' => f a s'
      | .error e s' => .error e s' := by
  change EStateM.bind x f s = _
  unfold EStateM.bind
  cases x s <;> rfl

theorem bind_ok {β : Type} {x : EStateM ε σ α} {f : α → EStateM ε σ β} {a : α} {s s' : σ} (h : x s = .ok a s') :
    (x >>= f) s = f a s' := by
  rw [bind_run, h]

theorem bind_error {β : Type} {x : EStateM ε σ α} {f : α → EStateM ε σ β} {e : ε} {s s' : σ}
    (h : x s = .error e s') : (x >>= f) s = .error e s' := by
  rw [bind_run, h]

/-- What a result says: `Q` of a value, `I` of the state after an exception. -/
def Ends (Q : α → σ → Prop) (I : σ → Prop) : EStateM.Result ε σ α → Prop
  | .ok a s => Q a s
  | .error _ s => I s

theorem Ends.imp {I J : σ → Prop} (h : ∀ s, I s → J s) {r : EStateM.Result ε σ α}
    (hr : Ends (fun _ => I) I r) : Ends (fun _ => J) J r := by
  cases r with
  | ok a s => exact h s hr
  | error e s => exact h s hr

/-- If every attempt that raises keeps `I` and every attempt that returns gives `Q`, so do the attempts
together. -/
theorem retryFrom_ends {fn : Nat → EStateM ε σ α} {Q : α → σ → Prop} {I : σ → Prop}
    (h : ∀ k s, I s → Ends Q I (fn k s)) {left attempt : Nat} {last : ε} {s : σ} (hs : I s) :
    Ends Q I (retryFrom fn left attempt last s) := by
  induction left generalizing attempt last s with
  | zero => exact hs
  | succ left ih =>
      have hk := h attempt s hs
      simp only [retryFrom, tryCatch_run]
      cases hr : fn attempt s with
      | ok a s' => rw [hr] at hk; exact hk
      | error e s' => rw [hr] at hk; exact ih hk

/-- With at least one attempt, what every attempt that raises brings about holds after the last exception. -/
theorem retry_ends_of_pos {fn : Nat → EStateM ε σ α} {Q : α → σ → Prop} {I J : σ → Prop} (none_raised : ε)
    {count : Nat} (hc : 0 < count) (hJ : ∀ s, J s → I s) (h : ∀ k s, I s → Ends Q J (fn k s)) {s : σ}
    (hs : I s) : Ends Q J (retry none_raised count fn s) := by
  obtain ⟨n, rfl⟩ : ∃ n, count = n + 1 := ⟨count - 1, by omega⟩
  have h₁ := h 1 s hs
  simp only [retry, retryFrom, tryCatch_run]
  cases hr : fn 1 s with
  | ok a s' => rw [hr] at h₁; exact h₁
  | error e s' => rw [hr] at h₁; exact retryFrom_ends (fun k s hs => h k s (hJ s hs)) h₁

/-! ## Calls that write -/

inductive WriteReply (ε : Type) where
  | ok
  /-- It raises and nothing is written. -/
  | refused (exc : ε)
  /-- It is written, and the call raises. -/
  | lost (exc : ε)

def WriteReply.returns : WriteReply ε → Bool
  | .ok => true
  | .refused _ => false
  | .lost _ => false

def write (f : σ → σ) : WriteReply ε → EStateM ε σ Unit
  | .ok => modify f
  | .refused exc => throw exc
  | .lost exc => do
      modify f
      throw exc

def returnsFrom (reply : Nat → WriteReply ε) : (left attempt : Nat) → Bool
  | 0, _ => false
  | left + 1, attempt =>
      match reply attempt with
      | .ok => true
      | .refused _ => returnsFrom reply left (attempt + 1)
      | .lost _ => returnsFrom reply left (attempt + 1)

def writesFrom (reply : Nat → WriteReply ε) : (left attempt : Nat) → Nat
  | 0, _ => 0
  | left + 1, attempt =>
      match reply attempt with
      | .ok => 1
      | .refused _ => writesFrom reply left (attempt + 1)
      | .lost _ => writesFrom reply left (attempt + 1) + 1

/-- One of the attempts returns. -/
def returns (reply : Nat → WriteReply ε) (count : Nat) : Bool := returnsFrom reply count 1

/-- How many of the attempts are written. -/
def writes (reply : Nat → WriteReply ε) (count : Nat) : Nat := writesFrom reply count 1

/-- `r` is what attempts come to that are written `n` times, and of which one returns or not. -/
def Wrote (f : σ → σ) (n : Nat) (s : σ) : Bool → EStateM.Result ε σ Unit → Prop
  | true, r => r = .ok () (f^[n] s)
  | false, r => ∃ exc, r = .error exc (f^[n] s)

theorem retryFrom_write (f : σ → σ) (reply : Nat → WriteReply ε) (left attempt : Nat) (last : ε) (s : σ) :
    Wrote f (writesFrom reply left attempt) s (returnsFrom reply left attempt)
      (retryFrom (fun k => write f (reply k)) left attempt last s) := by
  induction left generalizing attempt last s with
  | zero => exact ⟨last, rfl⟩
  | succ left ih =>
      simp only [retryFrom, tryCatch_run, returnsFrom, writesFrom]
      cases hr : reply attempt with
      | ok => rfl
      | refused exc => exact ih (attempt + 1) exc s
      | lost exc => exact ih (attempt + 1) exc (f s)

theorem retry_write (none_raised : ε) (f : σ → σ) (reply : Nat → WriteReply ε) (count : Nat) (s : σ) :
    Wrote f (writes reply count) s (returns reply count)
      (retry none_raised count (fun k => write f (reply k)) s) :=
  retryFrom_write f reply count 1 none_raised s

def WriteReply.count : WriteReply ε → Nat
  | .ok => 1
  | .refused _ => 0
  | .lost _ => 1

theorem write_wrote (f : σ → σ) (reply : WriteReply ε) (s : σ) :
    Wrote f reply.count s reply.returns (write f reply s) := by
  cases reply with
  | ok => rfl
  | refused exc => exact ⟨exc, rfl⟩
  | lost exc => exact ⟨exc, rfl⟩

theorem Wrote.ends {f : σ → σ} {n : Nat} {s : σ} {returned : Bool} {r : EStateM.Result ε σ Unit}
    (h : Wrote f n s returned r) {I : σ → Prop} (hI : I (f^[n] s)) : Ends (fun _ => I) I r := by
  cases returned with
  | true => rw [show r = .ok () (f^[n] s) from h]; exact hI
  | false => obtain ⟨exc, rfl⟩ := h; exact hI

/-- What holds after the writes if none of them returns, and after the rest if one does, holds after both. -/
theorem write_then {f : σ → σ} {n : Nat} {returned : Bool} {x : EStateM ε σ Unit} {rest : Unit → EStateM ε σ α}
    {I : σ → Prop} {s : σ} (h : Wrote f n s returned (x s)) (hraise : returned = false → I (f^[n] s))
    (hrest : returned = true → Ends (fun _ => I) I (rest () (f^[n] s))) : Ends (fun _ => I) I ((x >>= rest) s) := by
  cases returned with
  | true =>
      rw [bind_ok h]
      exact hrest rfl
  | false =>
      obtain ⟨exc, hx⟩ := h
      rw [bind_error hx]
      exact hraise rfl

theorem writesFrom_pos {reply : Nat → WriteReply ε} {left attempt : Nat} (h : returnsFrom reply left attempt = true) :
    0 < writesFrom reply left attempt := by
  induction left generalizing attempt with
  | zero => cases h
  | succ left ih =>
      simp only [returnsFrom, writesFrom] at h ⊢
      cases hr : reply attempt with
      | ok => exact Nat.one_pos
      | refused exc => rw [hr] at h; exact ih h
      | lost exc => exact Nat.succ_pos _

theorem writes_pos {reply : Nat → WriteReply ε} {count : Nat} (h : returns reply count = true) :
    0 < writes reply count := writesFrom_pos h

/-- What holds of the first attempt and of the later ones holds of all. -/
theorem forall_from {P : Nat → Prop} {start stop : Nat} (hfirst : P start)
    (hlater : ∀ k, start + 1 ≤ k → k < stop → P k) : ∀ k, start ≤ k → k < stop → P k := by
  intro k hk hlt
  rcases Nat.eq_or_lt_of_le hk with rfl | hk
  · exact hfirst
  · exact hlater k hk hlt

/-- An attempt is written and raises, and a later one is written too. -/
def CommitsTwice (reply : Nat → WriteReply ε) (count : Nat) : Prop :=
  ∃ i j, 1 ≤ i ∧ i < j ∧ j ≤ count ∧ (reply i).count = 1 ∧ (reply j).count = 1 ∧
    ∀ k, 1 ≤ k → k < j → (reply k).returns = false

theorem writesFrom_succ (reply : Nat → WriteReply ε) (left attempt : Nat) :
    writesFrom reply (left + 1) attempt =
      (reply attempt).count + if (reply attempt).returns then 0 else writesFrom reply left (attempt + 1) := by
  rw [writesFrom]
  cases reply attempt with
  | ok => rfl
  | refused exc => simp [WriteReply.count, WriteReply.returns]
  | lost exc => simp [WriteReply.count, WriteReply.returns, Nat.add_comm]

theorem WriteReply.count_le_one (reply : WriteReply ε) : reply.count ≤ 1 := by
  cases reply <;> simp [WriteReply.count]

/-- An attempt is written and none before it returns. -/
theorem one_le_writesFrom {reply : Nat → WriteReply ε} {left attempt : Nat} :
    1 ≤ writesFrom reply left attempt ↔ ∃ j, attempt ≤ j ∧ j < attempt + left ∧ (reply j).count = 1 ∧
      ∀ k, attempt ≤ k → k < j → (reply k).returns = false := by
  induction left generalizing attempt with
  | zero =>
      simp only [writesFrom, Nat.add_zero]
      constructor
      · intro h
        cases h
      · rintro ⟨j, hge, hlt, _⟩
        omega
  | succ left ih =>
      rw [writesFrom_succ]
      constructor
      · intro h
        by_cases hcount : (reply attempt).count = 1
        · exact ⟨attempt, Nat.le_refl _, by omega, hcount, fun k hge hlt => by omega⟩
        · have hzero : (reply attempt).count = 0 := by
            have hle := (reply attempt).count_le_one
            omega
          rw [hzero, Nat.zero_add] at h
          split at h
          · cases h
          · rename_i hret
            obtain ⟨j, hge, hlt, hj, hbefore⟩ := ih.mp h
            exact ⟨j, by omega, by omega, hj, forall_from (Bool.eq_false_iff.mpr hret) hbefore⟩
      · rintro ⟨j, hge, hlt, hj, hbefore⟩
        rcases Nat.eq_or_lt_of_le hge with rfl | hge
        · omega
        · rw [hbefore attempt (Nat.le_refl _) hge]
          have hrest : 1 ≤ writesFrom reply left (attempt + 1) :=
            ih.mpr ⟨j, hge, by omega, hj, fun k hk hkj => hbefore k (by omega) hkj⟩
          simp only [Bool.false_eq_true, ↓reduceIte]
          omega

theorem two_le_writesFrom {reply : Nat → WriteReply ε} {left attempt : Nat} :
    2 ≤ writesFrom reply left attempt ↔ ∃ i j, attempt ≤ i ∧ i < j ∧ j < attempt + left ∧ (reply i).count = 1 ∧
      (reply j).count = 1 ∧ ∀ k, attempt ≤ k → k < j → (reply k).returns = false := by
  induction left generalizing attempt with
  | zero =>
      simp only [writesFrom, Nat.add_zero]
      constructor
      · intro h
        omega
      · rintro ⟨i, j, hge, hij, hlt, _⟩
        omega
  | succ left ih =>
      rw [writesFrom_succ]
      have hle := (reply attempt).count_le_one
      constructor
      · intro h
        split at h
        · omega
        · rename_i hret
          by_cases hcount : (reply attempt).count = 1
          · obtain ⟨j, hge, hlt, hj, hbefore⟩ :=
              one_le_writesFrom.mp (show 1 ≤ writesFrom reply left (attempt + 1) by omega)
            exact ⟨attempt, j, Nat.le_refl _, hge, by omega, hcount, hj,
              forall_from (Bool.eq_false_iff.mpr hret) hbefore⟩
          · obtain ⟨i, j, hge, hij, hlt, hi, hj, hbefore⟩ :=
              ih.mp (show 2 ≤ writesFrom reply left (attempt + 1) by omega)
            exact ⟨i, j, by omega, hij, by omega, hi, hj, forall_from (Bool.eq_false_iff.mpr hret) hbefore⟩
      · rintro ⟨i, j, hge, hij, hlt, hi, hj, hbefore⟩
        rw [hbefore attempt (Nat.le_refl _) (by omega)]
        simp only [Bool.false_eq_true, ↓reduceIte]
        rcases Nat.eq_or_lt_of_le hge with rfl | hge
        · have hrest : 1 ≤ writesFrom reply left (attempt + 1) :=
            one_le_writesFrom.mpr ⟨j, hij, by omega, hj, fun k hk hkj => hbefore k (by omega) hkj⟩
          omega
        · have hrest : 2 ≤ writesFrom reply left (attempt + 1) :=
            ih.mpr ⟨i, j, hge, hij, by omega, hi, hj, fun k hk hkj => hbefore k (by omega) hkj⟩
          omega

theorem two_le_writes_iff {reply : Nat → WriteReply ε} {count : Nat} :
    2 ≤ writes reply count ↔ CommitsTwice reply count := by
  unfold writes CommitsTwice
  rw [two_le_writesFrom]
  simp only [Nat.one_add, Nat.lt_succ_iff]

end Retry
