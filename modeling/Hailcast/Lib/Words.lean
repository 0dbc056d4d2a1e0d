import Mathlib.Data.List.Basic
import Mathlib.Data.List.TakeWhile

/-!
# Words of a line

The last occurrence of a word in a list, and the blocks of a list between its separators.
-/

namespace Words

variable {α : Type*}

section LastSplit

variable [DecidableEq α]

/-- What stands before the last occurrence of the word, and after it. -/
def lastSplit (word : List α) : List α → Option (List α × List α)
  | [] => none
  | x :: xs =>
      match lastSplit word xs with
      | some (pre, post) => some (x :: pre, post)
      | none => if word <+: x :: xs then some ([], (x :: xs).drop word.length) else none

variable {word xs pre post : List α}

theorem lastSplit_eq (h : lastSplit word xs = some (pre, post)) : xs = pre ++ (word ++ post) := by
  induction xs generalizing pre with
  | nil => cases h
  | cons x xs ih =>
      rw [lastSplit] at h
      cases hrest : lastSplit word xs with
      | some split =>
          rw [hrest] at h
          obtain ⟨rfl, rfl⟩ := Prod.mk.inj (Option.some.inj h)
          rw [List.cons_append, ← ih hrest]
      | none =>
          rw [hrest] at h
          dsimp only at h
          split at h
          · rename_i hprefix
            obtain ⟨rfl, rfl⟩ := Prod.mk.inj (Option.some.inj h)
            exact (List.prefix_iff_eq_append.mp hprefix).symm
          · cases h

/-- A word that ends with a mark occurs last where the mark does. -/
theorem lastSplit_append {mark : α} (stem : List α) (hstem : mark ∉ stem) (hpost : mark ∉ post) (pre : List α) :
    lastSplit (stem ++ [mark]) (pre ++ (stem ++ [mark] ++ post)) = some (pre, post) := by
  induction pre with
  | cons x pre ih => rw [List.cons_append, lastSplit, ih]
  | nil =>
      rw [List.nil_append]
      cases hword : stem ++ [mark] ++ post with
      | nil => simp at hword
      | cons x xs =>
          have hnone : lastSplit (stem ++ [mark]) xs = none := by
            cases hrest : lastSplit (stem ++ [mark]) xs with
            | none => rfl
            | some split =>
                have heq : stem ++ mark :: post = (x :: split.1 ++ stem) ++ mark :: split.2 := by
                  have hxs := lastSplit_eq hrest
                  rw [hxs] at hword
                  simpa using hword
                have hlength := congrArg List.length ((List.append_cons_inj_of_notMem hstem hpost).mp heq).1
                simp only [List.length_append, List.length_cons] at hlength
                omega
          rw [lastSplit, hnone, ← hword]
          simp

end LastSplit

/-! ## Blocks -/

variable {sep : α → Bool}

/-- The list is empty or its first element does not have the property. -/
def Stops (p : α → Bool) : List α → Prop
  | [] => True
  | x :: _ => p x = false

theorem stops_dropWhile (p : α → Bool) (xs : List α) : Stops p (xs.dropWhile p) := by
  induction xs with
  | nil => trivial
  | cons x xs ih =>
      cases hx : p x with
      | true => simpa [hx] using ih
      | false => simp [hx, Stops]

theorem span_append {p : α → Bool} {xs : List α} (hxs : ∀ x ∈ xs, p x = true) (tail : List α) (htail : Stops p tail) :
    (xs ++ tail).takeWhile p = xs ∧ (xs ++ tail).dropWhile p = tail := by
  induction xs with
  | nil => cases tail <;> simp_all [Stops]
  | cons x xs ih =>
      obtain ⟨hx, hxs⟩ := List.forall_mem_cons.mp hxs
      simp [hx, ih hxs]

theorem splitOnP_append_block (sep : α → Bool) (front : List α) :
    ∃ blocks last, ∀ xs, (∀ x ∈ xs, sep x = false) → (front ++ xs).splitOnP sep = blocks ++ [last ++ xs] := by
  induction front with
  | nil => exact ⟨[], [], fun xs hxs => by simpa using List.splitOnP_eq_singleton hxs⟩
  | cons c front ih =>
      obtain ⟨blocks, last, ih⟩ := ih
      cases hc : sep c with
      | true =>
          refine ⟨[] :: blocks, last, fun xs hxs => ?_⟩
          rw [List.cons_append, List.splitOnP_cons_eq_if_modifyHead, if_pos hc, ih xs hxs, List.cons_append]
      | false =>
          cases blocks with
          | nil =>
              refine ⟨[], c :: last, fun xs hxs => ?_⟩
              rw [List.cons_append, List.splitOnP_cons_eq_if_modifyHead, ih xs hxs]
              simp [hc]
          | cons block blocks =>
              refine ⟨(c :: block) :: blocks, last, fun xs hxs => ?_⟩
              rw [List.cons_append, List.splitOnP_cons_eq_if_modifyHead, ih xs hxs]
              simp [hc]

/-- What is put between `front` and `tail` belongs to one block; the others stay as they are. -/
theorem splitOnP_block (front : List α) {tail : List α} (htail : Stops (fun x => !sep x) tail) :
    ∃ blocks last rest, ∀ xs, (∀ x ∈ xs, sep x = false) →
      (front ++ (xs ++ tail)).splitOnP sep = blocks ++ (last ++ xs) :: rest := by
  obtain ⟨blocks, last, hblocks⟩ := splitOnP_append_block sep front
  cases tail with
  | nil => exact ⟨blocks, last, [], fun xs hxs => by rw [List.append_nil, hblocks xs hxs]⟩
  | cons c tail =>
      refine ⟨blocks, last, tail.splitOnP sep, fun xs hxs => ?_⟩
      have hc : sep c = true := by simpa [Stops] using htail
      rw [← List.append_assoc, List.splitOnP_append_cons _ _ hc, hblocks xs hxs, List.append_assoc]
      rfl

end Words
