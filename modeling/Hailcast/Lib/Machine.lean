import Mathlib.Data.List.Forall2

/-!
# Machines that answer

A machine takes requests one after the other and answers each. Where its states are related to those of another
machine, step by step, the answers of whole runs are related too.
-/

namespace Machine

variable {σ τ ι ο ο' : Type*}

/-- The answers of a run. -/
def answers (step : σ → ι → ο × σ) (s : σ) : List ι → List ο
  | [] => []
  | i :: is => (step s i).1 :: answers step (step s i).2 is

/-- The state after a run. -/
def final (step : σ → ι → ο × σ) (s : σ) : List ι → σ
  | [] => s
  | i :: is => final step (step s i).2 is

theorem final_append (step : σ → ι → ο × σ) (s : σ) (is js : List ι) :
    final step s (is ++ js) = final step (final step s is) js := by
  induction is generalizing s with
  | nil => rfl
  | cons i is ih => exact ih (step s i).2

/-- Each allowed request keeps the relation of the states, and the answers are related; the second machine may be given
the requests in another form. -/
structure Simulates (step : σ → ι → ο × σ) (step' : τ → ι → ο' × τ) (form : ι → ι) (allowed : ι → Prop)
    (sim : σ → τ → Prop) (rel : ο → ο' → Prop) : Prop where
  answer : ∀ s t i, sim s t → allowed i → rel (step s i).1 (step' t (form i)).1
  next : ∀ s t i, sim s t → allowed i → sim (step s i).2 (step' t (form i)).2

variable {step : σ → ι → ο × σ} {step' : τ → ι → ο' × τ} {form : ι → ι} {allowed : ι → Prop} {sim : σ → τ → Prop}
  {rel : ο → ο' → Prop}

theorem Simulates.answers (h : Simulates step step' form allowed sim rel) {s : σ} {t : τ} (hs : sim s t) {is : List ι}
    (his : ∀ i ∈ is, allowed i) :
    List.Forall₂ rel (Machine.answers step s is) (Machine.answers step' t (is.map form)) := by
  induction is generalizing s t with
  | nil => exact .nil
  | cons i is ih =>
      obtain ⟨hi, his⟩ := List.forall_mem_cons.mp his
      exact .cons (h.answer s t i hs hi) (ih (h.next s t i hs hi) his)

theorem Simulates.final (h : Simulates step step' form allowed sim rel) {s : σ} {t : τ} (hs : sim s t) {is : List ι}
    (his : ∀ i ∈ is, allowed i) : sim (Machine.final step s is) (Machine.final step' t (is.map form)) := by
  induction is generalizing s t with
  | nil => exact hs
  | cons i is ih =>
      obtain ⟨hi, his⟩ := List.forall_mem_cons.mp his
      exact ih (h.next s t i hs hi) his

/-- Two lists of answers that are both related to a third one. -/
theorem forall₂_of_common {α β γ : Type*} {r : α → β → Prop} {r' : γ → β → Prop} {q : α → γ → Prop}
    (h : ∀ a b c, r a b → r' c b → q a c) {xs : List α} {ys : List β} {zs : List γ} (hxs : List.Forall₂ r xs ys)
    (hzs : List.Forall₂ r' zs ys) : List.Forall₂ q xs zs := by
  induction hxs generalizing zs with
  | nil =>
      cases hzs
      exact .nil
  | cons hx _ ih =>
      cases hzs with
      | cons hz hzs => exact .cons (h _ _ _ hx hz) (ih hzs)

end Machine
