import Mathlib.Data.List.Nodup

/-!
# Left joins

Each row of the left table with the rows of the right table that have its key, or with none; a left row without a key
has no match.
-/

variable {α β κ : Type*} [DecidableEq κ]

def leftJoin (left : α → Option κ) (right : β → κ) (xs : List α) (ys : List β) : List (α × Option β) :=
  xs.flatMap fun x =>
    match ys.filter fun y => left x = some (right y) with
    | [] => [(x, none)]
    | matched => matched.map fun y => (x, some y)

namespace LeftJoin

variable {left : α → Option κ} {right : β → κ} {xs : List α} {ys : List β} {x : α} {y : β}

/-- The first row with the key. -/
def partner (left : α → Option κ) (right : β → κ) (ys : List β) (x : α) : Option β :=
  ys.find? fun y => left x = some (right y)

theorem partner_mem (h : partner left right ys x = some y) : y ∈ ys ∧ left x = some (right y) :=
  ⟨List.mem_of_find?_eq_some h, by simpa using List.find?_some h⟩

theorem partner_eq_none : partner left right ys x = none ↔ ∀ y ∈ ys, left x ≠ some (right y) := by
  simp [partner]

theorem partner_of_mem (hn : (ys.map right).Nodup) (hy : y ∈ ys) (h : left x = some (right y)) :
    partner left right ys x = some y := by
  cases hp : partner left right ys x with
  | none => exact absurd h (partner_eq_none.mp hp y hy)
  | some y' =>
      obtain ⟨hy', h'⟩ := partner_mem hp
      rw [List.inj_on_of_nodup_map hn hy hy' (Option.some.inj (h.symm.trans h'))]

/-- Where the keys on the right are distinct, a join adds one column to the left table. -/
theorem eq_map (hn : (ys.map right).Nodup) :
    leftJoin left right xs ys = xs.map fun x => (x, partner left right ys x) := by
  have hrow : ∀ x, (match ys.filter fun y => left x = some (right y) with
      | [] => [(x, none)]
      | matched => matched.map fun y => (x, some y)) = [(x, partner left right ys x)] := by
    intro x
    have hhead : (ys.filter fun y => left x = some (right y)).head? = partner left right ys x := List.head?_filter ..
    cases hmatched : ys.filter fun y => left x = some (right y) with
    | nil =>
        rw [hmatched] at hhead
        rw [← hhead]
        rfl
    | cons y rest =>
        have hkeys : ((y :: rest).map right).Nodup := by
          rw [← hmatched]
          exact hn.sublist (List.filter_sublist.map right)
        have hall : ∀ z ∈ y :: rest, left x = some (right z) := by
          intro z hz
          rw [← hmatched] at hz
          simpa using (List.mem_filter.mp hz).2
        have hrest : rest = [] := by
          cases rest with
          | nil => rfl
          | cons z rest =>
              have hsame : right y = right z :=
                Option.some.inj ((hall y (by simp)).symm.trans (hall z (by simp)))
              simp [hsame] at hkeys
        subst hrest
        rw [hmatched] at hhead
        rw [← hhead]
        rfl
  rw [leftJoin, List.map_eq_flatMap]
  exact List.flatMap_congr fun x _ => hrow x

end LeftJoin
