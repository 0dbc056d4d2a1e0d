import Hailcast.Lib.EventRun
import Hailcast.Lib.Prog
import Mathlib.Logic.Function.Basic

/-!
# Threads over shared state

Each thread runs a `Prog`; one request of one thread is one atomic step on the shared state. `Protocol` is a
rely–guarantee specification: an invariant of the shared state, and for each thread the changes that it must
expect from the others. `Safe` says that a program keeps the protocol from a state on, whatever the others do
in between, and ends with its postcondition. Programs that are safe one by one are safe together, over every
interleaving, with threads that crash and start again at any point (`System.good_step`).
-/

namespace Concurrent

variable {ι Op χ σ ε : Type} {Res : Op → Type} {α β : Type}

/-- Requests of thread `i`, answered as the choice `c` says; `none` when the request has to wait.
`allow` restricts the choices that a run makes. -/
structure Protocol (ι Op : Type) (Res : Op → Type) (χ σ ε : Type) where
  answer : ι → (o : Op) → χ → σ → Option (Except ε (Res o) × σ)
  allow : ι → (o : Op) → χ → σ → Prop
  inv : σ → Prop
  /-- What the other threads may do while thread `i` is between two requests. -/
  rely : ι → σ → σ → Prop
  rely_refl : ∀ i s, rely i s s
  rely_trans : ∀ i s s' s'', rely i s s' → rely i s' s'' → rely i s s''

variable (S : Protocol ι Op Res χ σ ε) (i : ι)

/-- From `s` on the program keeps the protocol, and ends in `Q`, or raises in `E`. -/
def Safe (Q : α → σ → Prop) (E : ε → σ → Prop) : Prog Op Res ε α → σ → Prop
  | .ret a, s => ∀ s', S.rely i s s' → S.inv s' → Q a s'
  | .raise e, s => ∀ s', S.rely i s s' → S.inv s' → E e s'
  | .act o k, s => ∀ s₁, S.rely i s s₁ → S.inv s₁ → ∀ c r s₂, S.allow i o c s₁ →
      S.answer i o c s₁ = some (r, s₂) →
        S.inv s₂ ∧ (∀ j, j ≠ i → S.rely j s₁ s₂) ∧ Safe Q E (k r) s₂

variable {S i} {Q Q' : α → σ → Prop} {E E' : ε → σ → Prop} {p : Prog Op Res ε α} {s s' : σ}

/-! ## Rules -/

theorem Safe.stable (h : Safe S i Q E p s) (hr : S.rely i s s') : Safe S i Q E p s' := by
  cases p with
  | ret a => exact fun t ht hi => h t (S.rely_trans i s s' t hr ht) hi
  | raise e => exact fun t ht hi => h t (S.rely_trans i s s' t hr ht) hi
  | act o k => exact fun t ht hi => h t (S.rely_trans i s s' t hr ht) hi

/-- It is enough to know safety in the states that satisfy the invariant. -/
theorem Safe.of_stable (h : ∀ s', S.rely i s s' → S.inv s' → Safe S i Q E p s') : Safe S i Q E p s := by
  cases p with
  | ret a => exact fun t ht hi => h t ht hi t (S.rely_refl i t) hi
  | raise e => exact fun t ht hi => h t ht hi t (S.rely_refl i t) hi
  | act o k => exact fun t ht hi => h t ht hi t (S.rely_refl i t) hi

theorem Safe.mono (h : Safe S i Q E p s) (hQ : ∀ a s, S.inv s → Q a s → Q' a s)
    (hE : ∀ e s, S.inv s → E e s → E' e s) : Safe S i Q' E' p s := by
  induction p generalizing s with
  | ret a => exact fun t ht hi => hQ a t hi (h t ht hi)
  | raise e => exact fun t ht hi => hE e t hi (h t ht hi)
  | act o k ih =>
      intro t ht hi c r t' hc ha
      obtain ⟨h₁, h₂, h₃⟩ := h t ht hi c r t' hc ha
      exact ⟨h₁, h₂, ih r h₃⟩

theorem Safe.bind {f : α → Prog Op Res ε β} {Q' : β → σ → Prop}
    (h : Safe S i (fun a s => Safe S i Q' E (f a) s) E p s) : Safe S i Q' E (p >>= f) s := by
  induction p generalizing s with
  | ret a => exact Safe.of_stable h
  | raise e => exact h
  | act o k ih =>
      intro t ht hi c r t' hc ha
      obtain ⟨h₁, h₂, h₃⟩ := h t ht hi c r t' hc ha
      exact ⟨h₁, h₂, ih r h₃⟩

theorem Safe.tryCatch {g : ε → Prog Op Res ε α}
    (h : Safe S i Q (fun e s => Safe S i Q E (g e) s) p s) : Safe S i Q E (p.tryCatch g) s := by
  induction p generalizing s with
  | ret a => exact h
  | raise e => exact Safe.of_stable h
  | act o k ih =>
      intro t ht hi c r t' hc ha
      obtain ⟨h₁, h₂, h₃⟩ := h t ht hi c r t' hc ha
      exact ⟨h₁, h₂, ih r h₃⟩

/-- The second part is safe wherever the first one can end. -/
theorem Safe.andThen {f : α → Prog Op Res ε β} {R : β → σ → Prop} (h : Safe S i Q E p s)
    (hf : ∀ a s', S.inv s' → Q a s' → Safe S i R E (f a) s') : Safe S i R E (p >>= f) s :=
  Safe.bind (h.mono hf fun _ _ _ he => he)

theorem Safe.ret {a : α} (h : ∀ s', S.rely i s s' → S.inv s' → Q a s') :
    Safe S i Q E (.ret a : Prog Op Res ε α) s := h

theorem Safe.raise {e : ε} (h : ∀ s', S.rely i s s' → S.inv s' → E e s') :
    Safe S i Q E (.raise e : Prog Op Res ε α) s := h

/-- One request: the invariant, the guarantee, and the postcondition that fits the answer. -/
theorem Safe.perform {o : Op} {Q : Res o → σ → Prop}
    (h : ∀ s₁, S.rely i s s₁ → S.inv s₁ → ∀ c r s₂, S.allow i o c s₁ →
      S.answer i o c s₁ = some (r, s₂) → S.inv s₂ ∧ (∀ j, j ≠ i → S.rely j s₁ s₂) ∧
        ∀ s₃, S.rely i s₂ s₃ → S.inv s₃ →
          match r with
          | .ok a => Q a s₃
          | .error e => E e s₃) :
    Safe S i Q E (Prog.perform o : Prog Op Res ε (Res o)) s := by
  intro t ht hi c r t' hc ha
  obtain ⟨h₁, h₂, h₃⟩ := h t ht hi c r t' hc ha
  refine ⟨h₁, h₂, ?_⟩
  cases r <;> exact h₃

theorem Safe.of_all {P : Op → Prop} {J : σ → Prop} (hJ : ∀ s s', J s → S.rely i s s' → J s')
    (hP : ∀ o s c r s', P o → S.inv s → J s → S.answer i o c s = some (r, s') →
      S.inv s' ∧ (∀ j, j ≠ i → S.rely j s s') ∧ J s') {p : Prog Op Res ε α} (hp : p.All P) (hs : J s) :
    Safe S i (fun _ => J) (fun _ => J) p s := by
  induction p generalizing s with
  | ret a => exact fun t ht _ => hJ s t hs ht
  | raise e => exact fun t ht _ => hJ s t hs ht
  | act o k ih =>
      intro t ht hi c r t' _ ha
      obtain ⟨h₁, h₂, h₃⟩ := hP o t c r t' hp.1 hi (hJ s t hs ht) ha
      exact ⟨h₁, h₂, ih r (hp.2 r) h₃⟩

/-- A loop with an accumulator keeps what each of its rounds keeps; `J` also speaks of the elements to come. -/
theorem Safe.foldEach {f : β → α → Prog Op Res ε β} {J : β → List α → σ → Prop}
    (hJ : ∀ b xs s s', J b xs s → S.rely i s s' → J b xs s') {xs : List α}
    (h : ∀ b x xs s, S.inv s → J b (x :: xs) s → Safe S i (fun b' => J b' xs) E (f b x) s) {b : β}
    (hs : J b xs s) : Safe S i (fun b' => J b' []) E (Prog.foldEach f b xs) s := by
  induction xs generalizing b s with
  | nil => exact fun t ht _ => hJ b [] s t hs ht
  | cons x xs ih =>
      refine Safe.of_stable (fun t ht hi => Safe.bind ?_)
      exact (h b x xs t hi (hJ b _ s t hs ht)).mono (fun b' u _ hu => ih hu) (fun _ _ _ he => he)

/-! ## Systems of threads -/

/-- The programs of the threads and the steps of the surroundings. -/
structure System (ι Op : Type) (Res : Op → Type) (χ ρ σ ε : Type) extends Protocol ι Op Res χ σ ε where
  body : ι → Prog Op Res ε Unit
  crashes : Bool
  /-- The start of a thread, with whether its program has returned before or was lost. -/
  reset : Bool → ι → σ → σ
  environment : ρ → σ → σ
  /-- What a thread leaves at its end. -/
  done : ι → σ → Prop

/-- The threads, each at its next request, and the shared state. -/
structure Config (ι Op : Type) (Res : Op → Type) (σ ε : Type) where
  threads : ι → Prog Op Res ε Unit
  shared : σ

inductive Event (ι χ ρ : Type) where
  /-- The next request of thread `i` is answered. -/
  | act (i : ι) (c : χ)
  /-- Thread `i` starts, after its end or a crash. -/
  | start (i : ι)
  | environment (e : ρ)

variable {ρ : Type} (T : System ι Op Res χ ρ σ ε)

def System.initial (s : σ) : Config ι Op Res σ ε := ⟨fun _ => .ret (), s⟩

/-- The choice may be made for the next request of the program. -/
def System.AllowedNext (i : ι) (c : χ) (s : σ) : Prog Op Res ε Unit → Prop
  | .act o _ => T.allow i o c s
  | _ => True

def System.Allowed (p : Config ι Op Res σ ε) : Event ι χ ρ → Prop
  | .act i c => T.AllowedNext i c p.shared (p.threads i)
  | .start i => T.crashes = true ∨ (p.threads i).ended = true
  | .environment _ => True

instance System.decidableAllowedNext [∀ i o c s, Decidable (T.allow i o c s)] (i : ι) (c : χ) (s : σ) :
    (q : Prog Op Res ε Unit) → Decidable (T.AllowedNext i c s q)
  | .act o _ => inferInstanceAs (Decidable (T.allow i o c s))
  | .ret _ => inferInstanceAs (Decidable True)
  | .raise _ => inferInstanceAs (Decidable True)

instance System.decidableAllowed [∀ i o c s, Decidable (T.allow i o c s)] (p : Config ι Op Res σ ε) :
    (e : Event ι χ ρ) → Decidable (T.Allowed p e)
  | .act i c => inferInstanceAs (Decidable (T.AllowedNext i c p.shared (p.threads i)))
  | .start i => inferInstanceAs (Decidable (T.crashes = true ∨ (p.threads i).ended = true))
  | .environment _ => inferInstanceAs (Decidable True)

/-- The invariant holds and each thread is safe from here on. -/
def System.Good (p : Config ι Op Res σ ε) : Prop :=
  T.inv p.shared ∧ ∀ i, Safe T.toProtocol i (fun _ => T.done i) (fun _ => T.done i) (p.threads i) p.shared

/-- What has to be shown of a system: its threads are safe from their start, and starts and the surroundings
keep the protocol. -/
structure System.Sound : Prop where
  body : ∀ b i s, T.inv s → (T.crashes = true ∨ T.done i s) →
    Safe T.toProtocol i (fun _ => T.done i) (fun _ => T.done i) (T.body i) (T.reset b i s)
  reset_inv : ∀ b i s, T.inv s → T.inv (T.reset b i s)
  reset_rely : ∀ b i j s, T.inv s → j ≠ i → T.rely j s (T.reset b i s)
  environment_inv : ∀ e s, T.inv s → T.inv (T.environment e s)
  environment_rely : ∀ e j s, T.inv s → T.rely j s (T.environment e s)

variable {T}

theorem System.good_initial {s : σ} (hi : T.inv s) (hd : ∀ i s', T.rely i s s' → T.inv s' → T.done i s') :
    T.Good (System.initial s) := ⟨hi, hd⟩

theorem System.Good.done {p : Config ι Op Res σ ε} (hg : T.Good p) {i : ι} (he : (p.threads i).ended = true) :
    T.done i p.shared := by
  have hi := hg.2 i
  cases hp : p.threads i with
  | act o k => rw [hp] at he; cases he
  | ret a => rw [hp] at hi; exact hi _ (T.rely_refl i _) hg.1
  | raise e => rw [hp] at hi; exact hi _ (T.rely_refl i _) hg.1

variable [DecidableEq ι]

def System.step (T : System ι Op Res χ ρ σ ε) (p : Config ι Op Res σ ε) : Event ι χ ρ → Config ι Op Res σ ε
  | .act i c =>
      match p.threads i with
      | .act o k =>
          match T.answer i o c p.shared with
          | some (r, s) => ⟨Function.update p.threads i (k r), s⟩
          | none => p
      | .ret _ => p
      | .raise _ => p
  | .start i => ⟨Function.update p.threads i (T.body i), T.reset (p.threads i).returned i p.shared⟩
  | .environment e => ⟨p.threads, T.environment e p.shared⟩

theorem System.good_update {p : Config ι Op Res σ ε} (hg : T.Good p) {i : ι} {q : Prog Op Res ε Unit} {s : σ}
    (hi : T.inv s) (hr : ∀ j, j ≠ i → T.rely j p.shared s)
    (hq : Safe T.toProtocol i (fun _ => T.done i) (fun _ => T.done i) q s) :
    T.Good ⟨Function.update p.threads i q, s⟩ := by
  refine ⟨hi, fun j => ?_⟩
  by_cases hj : j = i
  · subst hj; simpa using hq
  · simpa [Function.update_of_ne hj] using (hg.2 j).stable (hr j hj)

/-- One event keeps the invariant and the safety of every thread. -/
theorem System.good_step (hT : T.Sound) {p : Config ι Op Res σ ε} {e : Event ι χ ρ} (hg : T.Good p)
    (ha : T.Allowed p e) : T.Good (T.step p e) := by
  cases e with
  | act i c =>
      have hi := hg.2 i
      have ha : T.AllowedNext i c p.shared (p.threads i) := ha
      simp only [System.step]
      split
      · rename_i o k hk
        rw [hk] at hi ha
        split
        · rename_i r s hs
          obtain ⟨h₁, h₂, h₃⟩ := hi _ (T.rely_refl i _) hg.1 c r s ha hs
          exact System.good_update hg h₁ h₂ h₃
        · exact hg
      · exact hg
      · exact hg
  | start i =>
      exact System.good_update hg (hT.reset_inv _ i _ hg.1) (fun j hj => hT.reset_rely _ i j _ hg.1 hj)
        (hT.body _ i _ hg.1 (ha.imp id hg.done))
  | environment e =>
      exact ⟨hT.environment_inv e _ hg.1, fun j => (hg.2 j).stable (hT.environment_rely e j _ hg.1)⟩

theorem System.good_run (hT : T.Sound) {p : Config ι Op Res σ ε} {es : List (Event ι χ ρ)} (hg : T.Good p)
    (ha : EventRun.Along T.step T.Allowed p es) : T.Good (EventRun.run T.step p es) :=
  EventRun.Along.invariant (fun _ _ h hp => System.good_step hT h hp) hg ha

/-! ## What a thread sees of the state -/

/-- A view of each thread that only its own requests change, and how they do. -/
structure System.Viewed {τ : Type} (T : System ι Op Res χ ρ σ ε) (view : ι → σ → τ)
    (A : (o : Op) → Except ε (Res o) → τ → τ → Prop) : Prop where
  answer : ∀ {i o c s r s'}, T.inv s → T.answer i o c s = some (r, s') → A o r (view i s) (view i s')
  others : ∀ {i j o c s r s'}, j ≠ i → T.inv s → T.answer i o c s = some (r, s') → view j s' = view j s
  reset : ∀ {b i j s}, j ≠ i → view j (T.reset b i s) = view j s
  environment : ∀ {e i s}, view i (T.environment e s) = view i s

section Viewed

variable {τ : Type} {view : ι → σ → τ} {A : (o : Op) → Except ε (Res o) → τ → τ → Prop} {P : Op → τ → Prop}

/-- Each thread goes on as its body does. -/
def System.Following (A : (o : Op) → Except ε (Res o) → τ → τ → Prop) (P : Op → τ → Prop) (view : ι → σ → τ)
    (p : Config ι Op Res σ ε) : Prop :=
  ∀ i, (p.threads i).Follows A P (fun _ _ => True) (fun _ _ => True) (view i p.shared)

theorem System.following_update {p : Config ι Op Res σ ε} (hf : System.Following A P view p) {i : ι}
    {q : Prog Op Res ε Unit} {s : σ} (hothers : ∀ j, j ≠ i → view j s = view j p.shared)
    (hq : q.Follows A P (fun _ _ => True) (fun _ _ => True) (view i s)) :
    System.Following A P view ⟨Function.update p.threads i q, s⟩ := by
  intro j
  by_cases hj : j = i
  · subst hj
    simpa using hq
  · simpa [Function.update_of_ne hj, hothers j hj] using hf j

theorem System.following_step (hT : T.Viewed view A)
    (hbody : ∀ b i s, (T.body i).Follows A P (fun _ _ => True) (fun _ _ => True) (view i (T.reset b i s)))
    {p : Config ι Op Res σ ε} (hi : T.inv p.shared) (hf : System.Following A P view p) (e : Event ι χ ρ) :
    System.Following A P view (T.step p e) := by
  cases e with
  | act i c =>
      have hthread := hf i
      simp only [System.step]
      split
      · rename_i o k hk
        rw [hk] at hthread
        split
        · rename_i r s hs
          exact System.following_update hf (fun j hj => hT.others hj hi hs) (hthread.2 r _ (hT.answer hi hs))
        · exact hf
      · exact hf
      · exact hf
  | start i => exact System.following_update hf (fun j hj => hT.reset hj) (hbody _ i _)
  | environment e =>
      intro i
      simp only [System.step, hT.environment]
      exact hf i

omit [DecidableEq ι] in
/-- The next request of a thread has `P`. -/
theorem System.Following.next {p : Config ι Op Res σ ε} (hf : System.Following A P view p) {i : ι} {o : Op}
    (hnext : (p.threads i).next = some o) : P o (view i p.shared) := by
  have hthread := hf i
  cases hp : p.threads i with
  | act o' k =>
      rw [hp] at hthread hnext
      cases hnext
      exact hthread.1
  | ret a =>
      rw [hp] at hnext
      cases hnext
  | raise e =>
      rw [hp] at hnext
      cases hnext

end Viewed

end Concurrent
