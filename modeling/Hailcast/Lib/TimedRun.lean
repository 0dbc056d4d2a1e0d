import Mathlib
import Hailcast.Lib.EventRun

/-!
# Runs in time

The events of a run have times, and between two events the state stays as it is. A clock of the state that moves
exactly while a property holds, and that some events put back to zero, shows the number of instants since the last of
these events at which the property has held.
-/

namespace TimedRun

open EventRun

variable {σ ε : Type*} (step : σ → ε → σ) (time : ε → Int)

/-- The state at an instant: the events up to it have happened. -/
def stateAt (s : σ) (es : List ε) (t : Int) : σ := run step s (es.takeWhile fun e => decide (time e ≤ t))

def Ordered (es : List ε) : Prop := es.Pairwise fun e f => time e ≤ time f

instance (es : List ε) : Decidable (Ordered time es) := inferInstanceAs (Decidable (es.Pairwise _))

variable (holds : σ → Bool) (clears : ε → Bool)

/-- At the instant the property holds, and no later event clears the clock. -/
def counts (s : σ) (es : List ε) (t : Int) : Bool :=
  holds (stateAt step time s es t) && es.all fun e => !(decide (t < time e) && clears e)

/-- The number of counted instants from `start` to `now`. -/
noncomputable def counted (s : σ) (es : List ε) (start now : Int) : Nat :=
  ((Finset.Ico start now).filter fun t => counts step time holds clears s es t = true).card

/-- What a clock does in the states of an invariant. -/
structure Clock (I : σ → Prop) (reading : σ → Int → Int) : Prop where
  keep : ∀ s e, I s → I (step s e)
  move : ∀ s, I s → ∀ t t', reading s t' = reading s t + if holds s then t' - t else 0
  event : ∀ s e, I s → reading (step s e) (time e) = if clears e then 0 else reading s (time e)

variable {step time holds clears} {s : σ} {e : ε} {es : List ε} {start now t : Int}

theorem stateAt_end (h : ∀ f ∈ es, time f ≤ t) : stateAt step time s es t = run step s es := by
  have hall : es.takeWhile (fun f => decide (time f ≤ t)) = es := by simpa [List.takeWhile_eq_self_iff] using h
  rw [stateAt, hall]

theorem takeWhile_append_of_not {α : Type*} {p : α → Bool} {a : α} (xs : List α) (ha : p a = false) :
    (xs ++ [a]).takeWhile p = xs.takeWhile p := by
  induction xs with
  | nil => simp [ha]
  | cons x xs ih => cases hx : p x <;> simp [hx, ih]

theorem counts_append_before (h : t < time e) :
    counts step time holds clears s (es ++ [e]) t = (!clears e && counts step time holds clears s es t) := by
  have hstate : stateAt step time s (es ++ [e]) t = stateAt step time s es t := by
    rw [stateAt, stateAt, takeWhile_append_of_not _ (by simpa using h)]
  simp only [counts, hstate, List.all_append, List.all_cons, List.all_nil, h, decide_true, Bool.true_and, Bool.and_true]
  cases holds (stateAt step time s es t) <;> cases clears e <;> simp

theorem counts_after (h : ∀ f ∈ es, time f ≤ t) :
    counts step time holds clears s es t = holds (run step s es) := by
  have hnone : (es.all fun f => !(decide (t < time f) && clears f)) = true := by
    simp only [List.all_eq_true]
    intro f hf
    simp [h f hf]
  rw [counts, stateAt_end h, hnone, Bool.and_true]

/-- An event puts the count back or leaves it. -/
theorem counted_append (s : σ) (es : List ε) (e : ε) (start : Int) :
    counted step time holds clears s (es ++ [e]) start (time e) =
      if clears e then 0 else counted step time holds clears s es start (time e) := by
  have hfilter : ∀ t ∈ Finset.Ico start (time e), counts step time holds clears s (es ++ [e]) t =
      (!clears e && counts step time holds clears s es t) :=
    fun t ht => counts_append_before (Finset.mem_Ico.mp ht).2
  rw [counted, Finset.filter_congr fun t ht => by rw [hfilter t ht]]
  cases clears e <;> simp [counted]

/-- From the last event on, the count grows with the time while the property holds. -/
theorem counted_move {t' : Int} (h : ∀ f ∈ es, time f ≤ t) (hstart : start ≤ t) (hle : t ≤ t') :
    (counted step time holds clears s es start t' : Int) =
      counted step time holds clears s es start t + if holds (run step s es) then t' - t else 0 := by
  have hsplit : Finset.Ico start t' = Finset.Ico start t ∪ Finset.Ico t t' :=
    (Finset.Ico_union_Ico_eq_Ico hstart hle).symm
  have hlate : ((Finset.Ico t t').filter fun u => counts step time holds clears s es u = true) =
      if holds (run step s es) then Finset.Ico t t' else ∅ := by
    rw [Finset.filter_congr (q := fun _ => holds (run step s es) = true) fun u hu => by
      rw [counts_after fun f hf => (h f hf).trans (Finset.mem_Ico.mp hu).1]]
    cases holds (run step s es) <;> simp
  rw [counted, hsplit, Finset.filter_union, Finset.card_union_of_disjoint, hlate, Nat.cast_add, counted]
  · cases holds (run step s es) with
    | true => simp [Int.toNat_of_nonneg (Int.sub_nonneg.mpr hle)]
    | false => simp
  · exact Finset.disjoint_filter_filter (Finset.Ico_disjoint_Ico_consecutive start t t')

variable {I : σ → Prop} {reading : σ → Int → Int}

theorem Ordered.append (h : Ordered time (es ++ [e])) : Ordered time es ∧ ∀ f ∈ es, time f ≤ time e := by
  rw [Ordered, List.pairwise_append] at h
  exact ⟨h.1, fun f hf => h.2.2 f hf e (by simp)⟩

/-- The clock of a run that begins with nothing counted shows the counted instants. -/
theorem Clock.reading_eq (h : Clock step time holds clears I reading) (hs : I s) (hquiet : holds s = false)
    (hzero : ∀ t, reading s t = 0) (hsorted : Ordered time es) (hfirst : ∀ f ∈ es, start ≤ time f)
    (hlast : ∀ f ∈ es, time f ≤ now) (hnow : start ≤ now) :
    reading (run step s es) now = counted step time holds clears s es start now := by
  induction es using List.reverseRecOn generalizing now with
  | nil => simp [hzero, counted, counts, stateAt, hquiet]
  | append_singleton es e ih =>
      obtain ⟨hsorted, hbefore⟩ := hsorted.append
      have hI : I (run step s es) := run_invariant h.keep hs es
      have hend : run step s (es ++ [e]) = step (run step s es) e := by simp
      have hcount := ih hsorted (fun f hf => hfirst f (by simp [hf])) hbefore (hfirst e (by simp))
      rw [counted_move (t := time e) (by simpa [or_imp, forall_and] using hbefore) (hfirst e (by simp))
        (hlast e (by simp)), counted_append, hend, h.move _ (h.keep _ _ hI) (time e), h.event _ _ hI]
      cases clears e with
      | true => simp
      | false => simp [hcount]

end TimedRun
