import Mathlib.Algebra.BigOperators.Group.List.Basic
import Mathlib.Data.List.Induction
import Mathlib.Data.List.Nodup

/-!
# Insertion-ordered dictionaries

A dictionary that iterates over its keys in the order of their first insertion: assigning to a key that is
present replaces its value and keeps its place. `Dict.build` is the loop that assigns, for each element of a
list, a value computed from the value its key had before; it covers comprehensions and accumulating loops.
-/

/-- Entries in insertion order; no key occurs twice. -/
structure Dict (κ ν : Type*) where
  entries : List (κ × ν)
  nodup : (entries.map Prod.fst).Nodup

namespace Dict

variable {κ ν ν' α : Type*}

def empty : Dict κ ν := ⟨[], List.nodup_nil⟩

def keys (d : Dict κ ν) : List κ := d.entries.map Prod.fst

@[simp] theorem keys_empty : (empty : Dict κ ν).keys = [] := rfl

variable [DecidableEq κ]

def lookup (k : κ) : List (κ × ν) → Option ν
  | [] => none
  | (k', v) :: es => if k' = k then some v else lookup k es

def get? (d : Dict κ ν) (k : κ) : Option ν := lookup k d.entries

@[simp] theorem get?_empty (k : κ) : (empty : Dict κ ν).get? k = none := rfl

def assign (k : κ) (v : ν) : List (κ × ν) → List (κ × ν)
  | [] => [(k, v)]
  | (k', v') :: es => if k' = k then (k', v) :: es else (k', v') :: assign k v es

theorem keys_assign (k : κ) (v : ν) (es : List (κ × ν)) :
    (assign k v es).map Prod.fst =
      if k ∈ es.map Prod.fst then es.map Prod.fst else es.map Prod.fst ++ [k] := by
  induction es with
  | nil => simp [assign]
  | cons e es ih =>
      obtain ⟨k', v'⟩ := e
      by_cases hk : k' = k
      · simp [assign, hk]
      · have hk' : k ≠ k' := Ne.symm hk
        simp only [assign, hk, ↓reduceIte, List.map_cons, ih, List.mem_cons, hk', false_or]
        split <;> rfl

theorem lookup_assign (k j : κ) (v : ν) (es : List (κ × ν)) :
    lookup j (assign k v es) = if k = j then some v else lookup j es := by
  induction es with
  | nil => simp [assign, lookup]
  | cons e es ih =>
      obtain ⟨k', v'⟩ := e
      by_cases hk : k' = k
      · subst hk
        by_cases hj : k' = j <;> simp [assign, lookup, hj]
      · by_cases hj : k' = j
        · subst hj
          have hk' : k ≠ k' := Ne.symm hk
          simp [assign, lookup, hk, hk']
        · simp [assign, lookup, hk, hj, ih]

/-- `d[k] = v`. -/
def set (d : Dict κ ν) (k : κ) (v : ν) : Dict κ ν where
  entries := assign k v d.entries
  nodup := by
    rw [keys_assign]
    split
    · exact d.nodup
    · rename_i hk
      exact List.Nodup.append d.nodup (List.nodup_singleton k)
        (by simpa [List.disjoint_singleton] using hk)

theorem keys_set (d : Dict κ ν) (k : κ) (v : ν) :
    (d.set k v).keys = if k ∈ d.keys then d.keys else d.keys ++ [k] := keys_assign k v d.entries

theorem mem_keys_set {d : Dict κ ν} {k j : κ} {v : ν} : j ∈ (d.set k v).keys ↔ j ∈ d.keys ∨ k = j := by
  rw [keys_set]
  split
  · rename_i hmem
    constructor
    · exact .inl
    · rintro (h | rfl)
      · exact h
      · exact hmem
  · simp [eq_comm]

theorem get?_set (d : Dict κ ν) (k j : κ) (v : ν) :
    (d.set k v).get? j = if k = j then some v else d.get? j := lookup_assign k j v d.entries

theorem lookup_isSome (k : κ) (es : List (κ × ν)) : (lookup k es).isSome ↔ k ∈ es.map Prod.fst := by
  induction es with
  | nil => simp [lookup]
  | cons e es ih =>
      obtain ⟨k', v⟩ := e
      by_cases hk : k' = k
      · simp [lookup, hk]
      · have hk' : k ≠ k' := Ne.symm hk
        simpa [lookup, hk, hk'] using ih

theorem mem_of_lookup {k : κ} {v : ν} {es : List (κ × ν)} (h : lookup k es = some v) : (k, v) ∈ es := by
  induction es with
  | nil => cases h
  | cons e es ih =>
      obtain ⟨k', v'⟩ := e
      unfold lookup at h
      split at h
      · rename_i hk
        obtain rfl := Option.some.inj h
        exact hk ▸ List.mem_cons_self
      · exact List.mem_cons_of_mem _ (ih h)

theorem lookup_of_mem {k : κ} {v : ν} {es : List (κ × ν)} (hn : (es.map Prod.fst).Nodup) (h : (k, v) ∈ es) :
    lookup k es = some v := by
  induction es with
  | nil => cases h
  | cons e es ih =>
      obtain ⟨k', v'⟩ := e
      obtain ⟨hk', hn⟩ := List.nodup_cons.mp hn
      rcases List.mem_cons.mp h with he | h
      · obtain ⟨rfl, rfl⟩ := Prod.mk.inj he
        simp [lookup]
      · have hne : k' ≠ k := by
          rintro rfl
          exact hk' (List.mem_map.mpr ⟨(k', v), h, rfl⟩)
        rw [lookup, if_neg hne]
        exact ih hn h

theorem mem_entries_iff (d : Dict κ ν) {k : κ} {v : ν} : (k, v) ∈ d.entries ↔ d.get? k = some v :=
  ⟨lookup_of_mem d.nodup, mem_of_lookup⟩

theorem get?_isSome (d : Dict κ ν) (k : κ) : (d.get? k).isSome ↔ k ∈ d.keys := lookup_isSome k d.entries

/-! ## The same keys with other values -/

theorem lookup_mapped (f : ν → ν') (k : κ) (es : List (κ × ν)) :
    lookup k (es.map fun e => (e.1, f e.2)) = (lookup k es).map f := by
  induction es with
  | nil => rfl
  | cons e es ih =>
      simp only [List.map_cons, lookup, ih]
      split <;> rfl

theorem assign_mapped (f : ν → ν') (k : κ) (v : ν) (es : List (κ × ν)) :
    assign k (f v) (es.map fun e => (e.1, f e.2)) = (assign k v es).map fun e => (e.1, f e.2) := by
  induction es with
  | nil => rfl
  | cons e es ih =>
      simp only [List.map_cons, assign, ih]
      split <;> rfl

/-! ## Building a dictionary from a list -/

/-- The loop `for x in xs: d[key x] = f (d.get (key x)) x`. -/
def buildFrom (key : α → κ) (f : Option ν → α → ν) (d : Dict κ ν) (xs : List α) : Dict κ ν :=
  xs.foldl (fun d x => d.set (key x) (f (d.get? (key x)) x)) d

def build (key : α → κ) (f : Option ν → α → ν) (xs : List α) : Dict κ ν := buildFrom key f empty xs

theorem keys_buildFrom (key : α → κ) (f : Option ν → α → ν) (g : Option ν' → α → ν') {d : Dict κ ν}
    {d' : Dict κ ν'} (hd : d.keys = d'.keys) (xs : List α) :
    (buildFrom key f d xs).keys = (buildFrom key g d' xs).keys := by
  induction xs generalizing d d' with
  | nil => exact hd
  | cons x xs ih => exact ih (by simp only [keys_set, hd])

/-- The keys and their order do not depend on the values. -/
theorem keys_build (key : α → κ) (f : Option ν → α → ν) (g : Option ν' → α → ν') (xs : List α) :
    (build key f xs).keys = (build key g xs).keys := keys_buildFrom key f g rfl xs

theorem mem_keys_buildFrom {key : α → κ} {f : Option ν → α → ν} {d : Dict κ ν} {xs : List α} {k : κ} :
    k ∈ (buildFrom key f d xs).keys ↔ k ∈ d.keys ∨ ∃ x ∈ xs, key x = k := by
  induction xs generalizing d with
  | nil => simp [buildFrom]
  | cons x xs ih =>
      change k ∈ (buildFrom key f (d.set (key x) _) xs).keys ↔ _
      rw [ih, mem_keys_set]
      simp [or_assoc]

theorem mem_keys_build {key : α → κ} {f : Option ν → α → ν} {xs : List α} {k : κ} :
    k ∈ (build key f xs).keys ↔ ∃ x ∈ xs, key x = k := by
  simp [build, mem_keys_buildFrom]

theorem get?_buildFrom (key : α → κ) (f : Option ν → α → ν) (d : Dict κ ν) (xs : List α) (k : κ) :
    (buildFrom key f d xs).get? k =
      (xs.filter (fun x => key x = k)).foldl (fun o x => some (f o x)) (d.get? k) := by
  induction xs generalizing d with
  | nil => rfl
  | cons x xs ih =>
      change (buildFrom key f (d.set (key x) _) xs).get? k = _
      rw [ih, get?_set]
      by_cases hk : key x = k
      · subst hk; simp
      · simp [hk]

/-- The value of a key folds over the elements with that key, in their order. -/
theorem get?_build (key : α → κ) (f : Option ν → α → ν) (xs : List α) (k : κ) :
    (build key f xs).get? k = (xs.filter (fun x => key x = k)).foldl (fun o x => some (f o x)) none :=
  get?_buildFrom key f empty xs k

theorem get?_build_last (key : α → κ) (val : α → ν) (xs : List α) (k : κ) :
    (build key (fun _ x => val x) xs).get? k = ((xs.filter (fun x => key x = k)).getLast?).map val := by
  rw [get?_build]
  generalize xs.filter (fun x => key x = k) = ys
  induction ys using List.reverseRecOn with
  | nil => rfl
  | append_singleton ys y _ => simp

/-- The loop that folds every element into the value of its key, which starts at `init`. -/
theorem get?_build_fold (key : α → κ) (init : ν) (op : ν → α → ν) (xs : List α) {k : κ}
    (hk : ∃ x ∈ xs, key x = k) :
    (build key (fun o x => op (o.getD init) x) xs).get? k =
      some ((xs.filter (fun x => key x = k)).foldl op init) := by
  rw [get?_build]
  have hne : xs.filter (fun x => key x = k) ≠ [] := by
    obtain ⟨x, hx, hxk⟩ := hk
    exact List.ne_nil_of_mem (List.mem_filter.mpr ⟨hx, by simpa using hxk⟩)
  generalize xs.filter (fun x => key x = k) = ys at hne
  have hfold : ∀ (zs : List α) (a : ν),
      zs.foldl (fun o x => some (op (o.getD init) x)) (some a) = some (zs.foldl op a) := by
    intro zs
    induction zs with
    | nil => simp
    | cons z zs ih => intro a; simp [ih]
  cases ys with
  | nil => exact absurd rfl hne
  | cons y ys => simp [hfold]

end Dict
