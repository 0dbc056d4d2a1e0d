import Hailcast.Lib.Concurrent

/-!
# What threads have learned

A thread learns from the answers to its requests, and what it has learned stays true of the shared state whatever the
others do. Then what its program follows from that knowledge, it follows in every run.
-/

namespace Concurrent

variable {ι Op χ ρ σ ε τ : Type} {Res : Op → Type}

/-- Knowledge `t` of a thread that is true of the state: `A` says what an answer adds to it. A thread that starts again
knows `t₀`. -/
structure System.Learning (T : System ι Op Res χ ρ σ ε) (known : τ → σ → Prop)
    (A : (o : Op) → Except ε (Res o) → τ → τ → Prop) (t₀ : τ) : Prop where
  answer : ∀ {i o c s r s' t}, T.inv s → known t s → T.answer i o c s = some (r, s') → ∃ t', A o r t t' ∧ known t' s'
  others : ∀ {i o c s r s' t}, T.inv s → known t s → T.answer i o c s = some (r, s') → known t s'
  reset : ∀ {b i s t}, known t s → known t (T.reset b i s)
  environment : ∀ {e s t}, known t s → known t (T.environment e s)
  start : ∀ {s}, known t₀ s

/-- Each thread goes on as its knowledge allows. -/
def System.Learned (known : τ → σ → Prop) (A : (o : Op) → Except ε (Res o) → τ → τ → Prop) (P : Op → τ → Prop)
    (p : Config ι Op Res σ ε) : Prop :=
  ∀ i, ∃ t, known t p.shared ∧ (p.threads i).Follows A P (fun _ _ => True) (fun _ _ => True) t

variable {T : System ι Op Res χ ρ σ ε} {known : τ → σ → Prop} {A : (o : Op) → Except ε (Res o) → τ → τ → Prop}
  {P : Op → τ → Prop} {t₀ : τ}

variable [DecidableEq ι]

theorem System.learned_update {p : Config ι Op Res σ ε} (hp : System.Learned known A P p) {i : ι}
    {q : Prog Op Res ε Unit} {s : σ} (hs : ∀ t, known t p.shared → known t s)
    (hq : ∃ t, known t s ∧ q.Follows A P (fun _ _ => True) (fun _ _ => True) t) :
    System.Learned known A P ⟨Function.update p.threads i q, s⟩ := by
  intro j
  by_cases hj : j = i
  · subst hj
    simpa using hq
  · obtain ⟨t, ht, hfollows⟩ := hp j
    exact ⟨t, hs t ht, by simpa [Function.update_of_ne hj] using hfollows⟩

theorem System.learned_step (hT : T.Learning known A t₀)
    (hbody : ∀ i, (T.body i).Follows A P (fun _ _ => True) (fun _ _ => True) t₀) {p : Config ι Op Res σ ε}
    (hi : T.inv p.shared) (hp : System.Learned known A P p) (e : Event ι χ ρ) :
    System.Learned known A P (T.step p e) := by
  cases e with
  | act i c =>
      obtain ⟨t, ht, hfollows⟩ := hp i
      simp only [System.step]
      split
      · rename_i o k hk
        rw [hk] at hfollows
        split
        · rename_i r s hs
          obtain ⟨t', ha, ht'⟩ := hT.answer hi ht hs
          exact System.learned_update hp (fun _ h => hT.others hi h hs) ⟨t', ht', hfollows.2 r t' ha⟩
        · exact hp
      · exact hp
      · exact hp
  | start i => exact System.learned_update hp (fun _ h => hT.reset h) ⟨t₀, hT.start, hbody i⟩
  | environment e =>
      intro i
      obtain ⟨t, ht, hfollows⟩ := hp i
      exact ⟨t, hT.environment ht, hfollows⟩

omit [DecidableEq ι] in
/-- The next request of a thread is one that its knowledge allows. -/
theorem System.Learned.next {p : Config ι Op Res σ ε} (hp : System.Learned known A P p) {i : ι} {o : Op}
    {k : Except ε (Res o) → Prog Op Res ε Unit} (hk : p.threads i = .act o k) : ∃ t, known t p.shared ∧ P o t := by
  obtain ⟨t, ht, hfollows⟩ := hp i
  rw [hk] at hfollows
  exact ⟨t, ht, hfollows.1⟩

end Concurrent
