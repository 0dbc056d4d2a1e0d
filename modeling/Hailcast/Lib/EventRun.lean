import Mathlib.Data.List.Basic

/-!
# Runs of an event machine

A machine whose nondeterminism is in its events: `step s e` is the state after the event `e`, and a run is
a list of events. `Along` says that every event of a run has a property in the state it finds; the rules
below move such properties along an invariant.
-/

namespace EventRun

variable {σ ε : Type*} (step : σ → ε → σ)

def run (s : σ) (es : List ε) : σ := es.foldl step s

@[simp] theorem run_nil (s : σ) : run step s [] = s := rfl

@[simp] theorem run_cons (s : σ) (e : ε) (es : List ε) :
    run step s (e :: es) = run step (step s e) es := rfl

@[simp] theorem run_append (s : σ) (es fs : List ε) :
    run step s (es ++ fs) = run step (run step s es) fs := by
  simp [run, List.foldl_append]

/-- Every event of the run has `P` in the state in which it happens. -/
def Along (P : σ → ε → Prop) : σ → List ε → Prop
  | _, [] => True
  | s, e :: es => P s e ∧ Along P (step s e) es

instance Along.decidable (P : σ → ε → Prop) [∀ s e, Decidable (P s e)] :
    (s : σ) → (es : List ε) → Decidable (Along step P s es)
  | _, [] => inferInstanceAs (Decidable True)
  | s, e :: es => @instDecidableAnd _ _ _ (Along.decidable P (step s e) es)

variable {step} {P Q : σ → ε → Prop} {I : σ → Prop}

@[simp] theorem along_nil {s : σ} : Along step P s [] := trivial

@[simp] theorem along_cons {s : σ} {e : ε} {es : List ε} :
    Along step P s (e :: es) ↔ P s e ∧ Along step P (step s e) es := Iff.rfl

theorem along_append {s : σ} {es fs : List ε} :
    Along step P s (es ++ fs) ↔ Along step P s es ∧ Along step P (run step s es) fs := by
  induction es generalizing s with
  | nil => simp
  | cons e es ih => simp [ih, and_assoc]

theorem along_iff_prefix {s : σ} {es : List ε} :
    Along step P s es ↔ ∀ pre e post, es = pre ++ e :: post → P (run step s pre) e := by
  constructor
  · rintro h pre e post rfl
    exact (along_append.mp h).2.1
  · intro h
    induction es generalizing s with
    | nil => trivial
    | cons e es ih =>
        refine ⟨h [] e es rfl, ih ?_⟩
        intro pre f post he
        exact h (e :: pre) f post (by rw [he]; rfl)

theorem along_of_forall {R : ε → Prop} {s : σ} {es : List ε} (h : ∀ e ∈ es, R e) :
    Along step (fun _ => R) s es := by
  induction es generalizing s with
  | nil => trivial
  | cons e es ih => exact ⟨h e (by simp), ih (fun f hf => h f (by simp [hf]))⟩

theorem Along.forall {R : ε → Prop} {s : σ} {es : List ε} (h : Along step (fun _ => R) s es) : ∀ e ∈ es, R e := by
  induction es generalizing s with
  | nil => simp
  | cons e es ih => exact List.forall_mem_cons.mpr ⟨h.1, ih h.2⟩

theorem Along.and {s : σ} {es : List ε} (hP : Along step P s es) (hQ : Along step Q s es) :
    Along step (fun s e => P s e ∧ Q s e) s es := by
  induction es generalizing s with
  | nil => trivial
  | cons e es ih => exact ⟨⟨hP.1, hQ.1⟩, ih hP.2 hQ.2⟩

/-! ## Invariants -/

/-- A property kept by every event holds at the end of every run. -/
theorem run_invariant (hI : ∀ s e, I s → I (step s e)) {s : σ} (hs : I s) (es : List ε) :
    I (run step s es) := by
  induction es generalizing s with
  | nil => exact hs
  | cons e es ih => exact ih (hI s e hs)

/-- The same for runs whose events all have `P`. -/
theorem Along.invariant (hI : ∀ s e, I s → P s e → I (step s e)) {s : σ} (hs : I s) {es : List ε}
    (h : Along step P s es) : I (run step s es) := by
  induction es generalizing s with
  | nil => exact hs
  | cons e es ih => exact ih (hI s e hs h.1) h.2

/-- Along an invariant, a property of the events gives another one. -/
theorem Along.imp (hI : ∀ s e, I s → P s e → I (step s e)) (hQ : ∀ s e, I s → P s e → Q s e) {s : σ}
    (hs : I s) {es : List ε} (h : Along step P s es) : Along step Q s es := by
  induction es generalizing s with
  | nil => trivial
  | cons e es ih => exact ⟨hQ s e hs h.1, ih (hI s e hs h.1) h.2⟩

/-- In a run whose events all have `L`, a property `D` that follows from an invariant holds all along exactly if every
event has `P`: an event with `P` keeps the invariant, and one after which `D` holds has `P`. -/
theorem Along.iff_all {L : σ → ε → Prop} {D : σ → Prop} (hkeep : ∀ s e, I s → L s e → P s e → I (step s e))
    (hback : ∀ s e, I s → L s e → D (step s e) → P s e) (hD : ∀ s, I s → D s) {s : σ} (hs : I s) {es : List ε}
    (hL : Along step L s es) : Along step P s es ↔ ∀ pre post, es = pre ++ post → D (run step s pre) := by
  induction es generalizing s with
  | nil =>
      refine ⟨fun _ pre post he => ?_, fun _ => trivial⟩
      obtain ⟨rfl, _⟩ := List.append_eq_nil_iff.mp he.symm
      exact hD s hs
  | cons e es ih =>
      obtain ⟨hLe, hLes⟩ := hL
      constructor
      · rintro ⟨he, hes⟩ pre post hsplit
        cases pre with
        | nil => exact hD s hs
        | cons f pre =>
            obtain ⟨rfl, rfl⟩ := List.cons.inj hsplit
            exact (ih (hkeep s e hs hLe he) hLes).mp hes pre post rfl
      · intro h
        have he : P s e := hback s e hs hLe (h [e] es rfl)
        refine ⟨he, (ih (hkeep s e hs hLe he) hLes).mpr fun pre post hsplit => ?_⟩
        exact h (e :: pre) post (by rw [hsplit]; rfl)

/-- In a run whose events all have `L`, and where an event with `L` keeps an invariant exactly if it has `P`, the
invariant holds all along exactly if every event of the run has `P`. -/
theorem Along.iff_invariant {L : σ → ε → Prop} (hI : ∀ s e, I s → L s e → (I (step s e) ↔ P s e)) {s : σ} (hs : I s)
    {es : List ε} (hL : Along step L s es) :
    Along step P s es ↔ ∀ pre post, es = pre ++ post → I (run step s pre) :=
  Along.iff_all (fun s e hi hl => (hI s e hi hl).mpr) (fun s e hi hl => (hI s e hi hl).mp) (fun _ hi => hi) hs hL

/-- When an event keeps an invariant exactly if it has `P`, the invariant holds all along a run exactly if every
event of the run has `P`. -/
theorem along_iff_invariant (hI : ∀ s e, I s → (I (step s e) ↔ P s e)) {s : σ} (hs : I s) {es : List ε} :
    Along step P s es ↔ ∀ pre post, es = pre ++ post → I (run step s pre) :=
  Along.iff_invariant (fun s e hi _ => hI s e hi) hs
    (along_of_forall (fun _ _ => trivial) : Along step (fun _ _ => True) s es)

/-- When an event keeps an invariant exactly if it has `P`, every event of a run finds the invariant exactly if every
event before the last one has `P`. -/
theorem along_iff_dropLast (hI : ∀ s e, I s → (I (step s e) ↔ P s e)) {s : σ} (hs : I s) {es : List ε} :
    Along step (fun s _ => I s) s es ↔ Along step P s es.dropLast := by
  induction es generalizing s with
  | nil => simp
  | cons e es ih =>
      cases es with
      | nil => simp [hs]
      | cons f es =>
          rw [List.dropLast_cons_cons]
          constructor
          · rintro ⟨_, h⟩
            exact ⟨(hI s e hs).mp h.1, (ih h.1).mp h⟩
          · rintro ⟨he, h⟩
            exact ⟨hs, (ih ((hI s e hs).mpr he)).mpr h⟩

end EventRun
