import Mathlib.Data.List.Nodup

/-!
# Reading by pages

The keys of a store come in an order. A page holds the rows at some keys from a start on, and names the last of them
where there may be more; the next page starts behind it. Nothing here says that two pages see the same rows.
-/

namespace Cursor

variable {κ ν : Type*}

/-- The rows at these keys. -/
def rows (get : κ → Option ν) (keys : List κ) : List (κ × ν) :=
  keys.filterMap fun k => (get k).map fun v => (k, v)

structure Page (κ ν : Type*) where
  rows : List (κ × ν)
  last : Option κ

variable {get : κ → Option ν} {keys : List κ}

theorem rows_cons (k : κ) (keys : List κ) :
    rows get (k :: keys) = ((get k).map fun v => (k, v)).toList ++ rows get keys := by
  cases h : get k <;> simp [rows, h]

@[simp] theorem mem_rows {k : κ} {v : ν} : (k, v) ∈ rows get keys ↔ k ∈ keys ∧ get k = some v := by
  simp only [rows, List.mem_filterMap, Option.map_eq_some_iff, Prod.mk.injEq]
  constructor
  · rintro ⟨k', hk', v', hv, rfl, rfl⟩
    exact ⟨hk', hv⟩
  · rintro ⟨hk, hv⟩
    exact ⟨k, hk, v, hv, rfl, rfl⟩

theorem rows_sublist (get : κ → Option ν) (keys : List κ) : ((rows get keys).map Prod.fst).Sublist keys := by
  induction keys with
  | nil => simp [rows]
  | cons k keys ih =>
      rw [rows_cons]
      cases get k with
      | none => simpa using ih.cons k
      | some v => simpa using ih.cons_cons k

/-- The first rows, of which there is a last one, are the rows up to its key. -/
theorem take_rows {n : Nat} {k : κ} (h : ((rows get keys).take (n + 1)).getLast?.map Prod.fst = some k) :
    ∃ before rest, keys = before ++ k :: rest ∧ (rows get keys).take (n + 1) = rows get (before ++ [k]) := by
  induction keys generalizing n with
  | nil => simp [rows] at h
  | cons j keys ih =>
      rw [rows_cons] at h ⊢
      cases hj : get j with
      | none =>
          simp only [hj, Option.map_none, Option.toList_none, List.nil_append] at h ⊢
          obtain ⟨before, rest, hkeys, htake⟩ := ih h
          refine ⟨j :: before, rest, by rw [hkeys, List.cons_append], ?_⟩
          rw [htake, List.cons_append, rows_cons, hj]
          rfl
      | some v =>
          simp only [hj, Option.map_some, Option.toList_some, List.singleton_append, List.take_succ_cons] at h ⊢
          cases n with
          | zero =>
              simp only [List.take_zero, List.getLast?_singleton, Option.map_some, Option.some.injEq] at h
              subst h
              exact ⟨[], keys, rfl, by simp [rows, hj]⟩
          | succ n =>
              cases htake : (rows get keys).take (n + 1) with
              | nil =>
                  simp only [htake, List.getLast?_singleton, Option.map_some, Option.some.injEq] at h
                  subst h
                  exact ⟨[], keys, rfl, by simp [rows, hj]⟩
              | cons row taken =>
                  rw [htake, List.getLast?_cons_cons, ← htake] at h
                  obtain ⟨before, rest, hkeys, hrows⟩ := ih h
                  refine ⟨j :: before, rest, by rw [hkeys, List.cons_append], ?_⟩
                  rw [← htake, hrows, List.cons_append, rows_cons, hj]
                  rfl

variable [DecidableEq κ]

/-- The keys behind `start`. -/
def behind (order : List κ) : Option κ → List κ
  | none => order
  | some k => (order.dropWhile fun j => j ≠ k).tail

/-- At most `limit + 1` rows. With `probe` a page that holds the last row names its key all the same. -/
def page (get : κ → Option ν) (order : List κ) (start : Option κ) (limit : Nat) (probe : Bool) : Page κ ν :=
  let found := rows get (behind order start)
  let taken := found.take (limit + 1)
  ⟨taken, if limit + 1 < found.length ∨ probe = true then taken.getLast?.map Prod.fst else none⟩

variable {order : List κ} {start : Option κ} {limit : Nat} {probe : Bool} {k : κ}

@[simp] theorem behind_none : behind order none = order := rfl

theorem behind_of_append {before rest : List κ} (h : k ∉ before) : behind (before ++ k :: rest) (some k) = rest := by
  induction before with
  | nil => simp [behind]
  | cons j before ih =>
      obtain ⟨hj, hbefore⟩ := not_or.mp (mt List.mem_cons.mpr h)
      simpa [behind, Ne.symm hj] using ih hbefore

/-- A page that names its last key holds the rows up to this key, at least one, and leaves the keys behind it. -/
theorem page_last {done : List κ} (hn : order.Nodup) (hdone : done ++ behind order start = order)
    (h : (page get order start limit probe).last = some k) :
    ∃ read, done ++ read ++ behind order (some k) = order ∧
      (page get order start limit probe).rows = rows get read ∧ (page get order start limit probe).rows ≠ [] := by
  simp only [page] at h ⊢
  split at h
  · obtain ⟨before, rest, hkeys, htake⟩ := take_rows h
    have hsplit : order = (done ++ before) ++ k :: rest := by rw [← hdone, hkeys, List.append_assoc]
    have hk : k ∉ done ++ before := by
      rw [hsplit] at hn
      intro hmem
      exact List.disjoint_of_nodup_append hn hmem List.mem_cons_self
    refine ⟨before ++ [k], ?_, htake, fun hnil => by simp [hnil] at h⟩
    have hbehind : behind order (some k) = rest := by
      rw [hsplit]
      exact behind_of_append hk
    rw [hbehind, hsplit]
    simp
  · cases h

/-- A page that names no key holds all rows that were left. -/
theorem page_end (h : (page get order start limit probe).last = none) :
    (page get order start limit probe).rows = rows get (behind order start) := by
  simp only [page] at h ⊢
  split at h
  · have hnil : (rows get (behind order start)).take (limit + 1) = [] := by simpa using h
    rw [hnil]
    simpa using hnil.symm
  · rename_i hshort
    exact List.take_of_length_le (by omega)

end Cursor
