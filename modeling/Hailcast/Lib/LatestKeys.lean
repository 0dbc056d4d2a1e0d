import Mathlib.Data.Finset.Card
import Mathlib.Data.List.Sort
import Mathlib.Order.Basic

/-!
# The latest keys of a log

A store that keeps, in the order of the keys, the last entry of each of the `cap` greatest keys that it has seen.
Cutting it after each entry gives what cutting it once at the end gives.
-/

namespace LatestKeys

variable {κ α : Type*} [LinearOrder κ] (key : α → κ)

def Sorted (l : List α) : Prop := l.Pairwise (fun x y => key x < key y)

/-- `x` in its place, instead of the entry with its key if there is one. -/
def insert (x : α) : List α → List α
  | [] => [x]
  | y :: l => if key x < key y then x :: y :: l else if key x = key y then x :: l else y :: insert x l

def all (log : List α) : List α := log.foldl (fun l x => insert key x l) []

def lastN (cap : Nat) (l : List α) : List α := l.drop (l.length - cap)

variable {key} {x y : α} {l a b : List α} {cap : Nat}

/-! ## Inserting -/

theorem mem_insert (h : Sorted key l) : y ∈ insert key x l ↔ y = x ∨ (y ∈ l ∧ key y ≠ key x) := by
  induction l with
  | nil => simp [insert]
  | cons z l ih =>
      obtain ⟨hz, hl⟩ := List.pairwise_cons.mp h
      simp only [insert]
      split
      · rename_i hlt
        have hne : y ∈ z :: l → key y ≠ key x := by
          intro hy
          rcases List.mem_cons.mp hy with rfl | hy
          · exact hlt.ne'
          · exact (hlt.trans (hz y hy)).ne'
        rw [List.mem_cons, and_iff_left_of_imp hne]
      · split
        · rename_i heq
          have hne : y ∈ l → key y ≠ key x := fun hy => heq ▸ (hz y hy).ne'
          have hout : ¬(y = z ∧ key y ≠ key x) := by
            rintro ⟨rfl, hkey⟩
            exact hkey heq.symm
          rw [List.mem_cons, List.mem_cons, or_and_right, and_iff_left_of_imp hne, iff_false_intro hout, false_or]
        · rename_i hne
          have hzx : y = z → key y ≠ key x := by
            rintro rfl
            exact Ne.symm hne
          rw [List.mem_cons, ih hl, List.mem_cons, or_and_right, and_iff_left_of_imp hzx, or_left_comm]

theorem insert_sorted (h : Sorted key l) (x : α) : Sorted key (insert key x l) := by
  induction l with
  | nil => exact List.pairwise_singleton _ _
  | cons z l ih =>
      obtain ⟨hz, hl⟩ := List.pairwise_cons.mp h
      simp only [insert]
      split
      · rename_i hlt
        refine List.pairwise_cons.mpr ⟨fun w hw => ?_, h⟩
        rcases List.mem_cons.mp hw with rfl | hw
        · exact hlt
        · exact hlt.trans (hz w hw)
      · rename_i hnlt
        split
        · rename_i heq
          exact List.pairwise_cons.mpr ⟨fun w hw => heq ▸ hz w hw, hl⟩
        · rename_i hne
          refine List.pairwise_cons.mpr ⟨fun w hw => ?_, ih hl⟩
          rcases (mem_insert hl).mp hw with rfl | ⟨hw, _⟩
          · exact lt_of_le_of_ne (not_lt.mp hnlt) (Ne.symm hne)
          · exact hz w hw

theorem insert_of_lt (h : ∀ y ∈ l, key x < key y) : insert key x l = x :: l := by
  cases l with
  | nil => rfl
  | cons y l => simp [insert, h y]

theorem insert_append_of_lt (h : ∀ y ∈ a, key y < key x) : insert key x (a ++ b) = a ++ insert key x b := by
  induction a with
  | nil => rfl
  | cons y a ih =>
      have hy := h y (by simp)
      simp [insert, not_lt.mpr hy.le, hy.ne', ih fun z hz => h z (by simp [hz])]

theorem insert_append_of_le (h : ∃ y ∈ a, key x ≤ key y) : insert key x (a ++ b) = insert key x a ++ b := by
  induction a with
  | nil => obtain ⟨_, hy, _⟩ := h; cases hy
  | cons z a ih =>
      simp only [List.cons_append, insert]
      split
      · rfl
      · rename_i hnlt
        split
        · rfl
        · rename_i hne
          obtain ⟨y, hy, hle⟩ := h
          rcases List.mem_cons.mp hy with rfl | hy
          · exact absurd (lt_of_le_of_ne hle hne) hnlt
          · rw [ih ⟨y, hy, hle⟩]
            rfl

theorem length_le_insert (x : α) (l : List α) : l.length ≤ (insert key x l).length := by
  induction l with
  | nil => simp
  | cons y l ih =>
      simp only [insert]
      split
      · simp
      · split <;> simp [ih]

theorem nodup_keys (h : Sorted key l) : (l.map key).Nodup :=
  List.pairwise_map.mpr (h.imp ne_of_lt)

theorem eq_of_key_eq (h : Sorted key l) (hx : x ∈ l) (hy : y ∈ l) (hk : key x = key y) : x = y :=
  List.inj_on_of_nodup_map (nodup_keys h) hx hy hk

/-- Replacing and sorting, in one list. -/
theorem insert_perm (h : Sorted key l) (x : α) :
    (insert key x l).Perm (l.filter (fun y => decide (key y ≠ key x)) ++ [x]) := by
  have hnodup : ∀ {m : List α}, Sorted key m → m.Nodup := fun hm => List.Nodup.of_map key (nodup_keys hm)
  refine (List.perm_ext_iff_of_nodup (hnodup (insert_sorted h x)) ?_).mpr fun y => ?_
  · refine List.nodup_append.mpr ⟨(hnodup h).filter _, List.nodup_singleton x, ?_⟩
    intro y hy z hz heq
    obtain rfl := List.mem_singleton.mp hz
    subst heq
    simp at hy
  · rw [mem_insert h]
    simp [or_comm]

theorem eq_insert_of_perm (h : Sorted key l) {m : List α}
    (hperm : m.Perm (l.filter (fun y => decide (key y ≠ key x)) ++ [x])) (hm : m.Pairwise (fun y z => key y ≤ key z)) :
    m = insert key x l := by
  have hins := insert_sorted h x
  have hperm' : m.Perm (insert key x l) := hperm.trans (insert_perm h x).symm
  have hanti : ∀ y z, y ∈ m → z ∈ insert key x l → key y ≤ key z → key z ≤ key y → y = z := fun y z hy hz hyz hzy =>
    eq_of_key_eq hins (hperm'.mem_iff.mp hy) hz (le_antisymm hyz hzy)
  exact List.Perm.eq_of_pairwise hanti hm (hins.imp le_of_lt) hperm'

/-! ## Cutting -/

theorem lastN_eq_of_length_le (h : l.length ≤ cap) : lastN cap l = l := by
  simp [lastN, Nat.sub_eq_zero_of_le h]

theorem lastN_append (h : cap ≤ b.length) : lastN cap (a ++ b) = lastN cap b := by
  have hlen : (a ++ b).length - cap = a.length + (b.length - cap) := by
    rw [List.length_append]
    omega
  rw [lastN, hlen, List.drop_append, List.drop_eq_nil_of_le (by omega), List.nil_append, Nat.add_sub_cancel_left]
  rfl

theorem length_lastN (cap : Nat) (l : List α) : (lastN cap l).length = min cap l.length := by
  rw [lastN, List.length_drop]
  omega

theorem lastN_sorted (h : Sorted key l) (cap : Nat) : Sorted key (lastN cap l) := h.sublist (List.drop_sublist _ _)

/-- Cutting before the insertion does not matter when one cuts after it. -/
theorem lastN_insert (h : Sorted key l) (cap : Nat) (x : α) :
    lastN cap (insert key x (lastN cap l)) = lastN cap (insert key x l) := by
  rcases Nat.le_total l.length cap with hle | hle
  · rw [lastN_eq_of_length_le hle]
  · obtain ⟨a, b, hab, hb⟩ : ∃ a b, l = a ++ b ∧ b.length = cap :=
      ⟨l.take (l.length - cap), l.drop (l.length - cap), (List.take_append_drop _ l).symm, by
        rw [List.length_drop]
        omega⟩
    have hcut : lastN cap b = b := lastN_eq_of_length_le hb.le
    subst hab
    rw [lastN_append hb.ge, hcut]
    by_cases hbelow : ∀ y ∈ a, key y < key x
    · rw [insert_append_of_lt hbelow, lastN_append (hb.ge.trans (length_le_insert x b))]
    · -- the entry is older than all that are kept
      obtain ⟨y, hy, hge⟩ : ∃ y ∈ a, key x ≤ key y := by simpa using hbelow
      have hlt : ∀ z ∈ b, key x < key z := fun z hz =>
        hge.trans_lt ((List.pairwise_append.mp h).2.2 y hy z hz)
      rw [insert_append_of_le ⟨y, hy, hge⟩, insert_of_lt hlt, lastN_append hb.ge]
      exact lastN_append (a := [x]) hb.ge

/-! ## The log -/

theorem all_append (log : List α) (x : α) : all key (log ++ [x]) = insert key x (all key log) := by
  simp [all, List.foldl_append]

theorem all_sorted (log : List α) : Sorted key (all key log) := by
  induction log using List.reverseRecOn with
  | nil => exact List.Pairwise.nil
  | append_singleton log x ih =>
      rw [all_append]
      exact insert_sorted ih x

theorem mem_all {log : List α} :
    x ∈ all key log ↔ (log.filter (fun y => decide (key y = key x))).getLast? = some x := by
  induction log using List.reverseRecOn with
  | nil => simp [all]
  | append_singleton log y ih =>
      rw [all_append, mem_insert (all_sorted log), ih, List.filter_append]
      by_cases hk : key y = key x
      · simp [hk, eq_comm]
      · have hne : x ≠ y := by rintro rfl; exact hk rfl
        simp [hk, hne, Ne.symm hk]

theorem keys_all (log : List α) : ((all key log).map key).toFinset = (log.map key).toFinset := by
  induction log using List.reverseRecOn with
  | nil => rfl
  | append_singleton log x ih =>
      rw [all_append]
      ext k
      have hk : k ∈ (all key log).map key ↔ k ∈ log.map key := by
        rw [← List.mem_toFinset, ← List.mem_toFinset, ih]
      simp only [List.mem_toFinset, List.mem_map, mem_insert (all_sorted log), List.map_append, List.mem_append,
        List.map_singleton, List.mem_singleton] at hk ⊢
      rw [← hk]
      constructor
      · rintro ⟨y, rfl | ⟨hy, _⟩, rfl⟩
        · exact Or.inr rfl
        · exact Or.inl ⟨y, hy, rfl⟩
      · rintro (⟨y, hy, rfl⟩ | rfl)
        · by_cases he : key y = key x
          · exact ⟨x, Or.inl rfl, he.symm⟩
          · exact ⟨y, Or.inr ⟨hy, he⟩, rfl⟩
        · exact ⟨x, Or.inl rfl, rfl⟩

/-- The stored entries are those of the `cap` greatest keys of the log, each the last of its key. -/
structure Latest (key : α → κ) (cap : Nat) (log stored : List α) : Prop where
  sorted : Sorted key stored
  length_eq : stored.length = min cap (log.map key).toFinset.card
  last : ∀ x ∈ stored, (log.filter (fun y => decide (key y = key x))).getLast? = some x
  later : ∀ x ∈ stored, ∀ y ∈ log, key y ∉ stored.map key → key y < key x

theorem latest_all (cap : Nat) (log : List α) : Latest key cap log (lastN cap (all key log)) where
  sorted := lastN_sorted (all_sorted log) cap
  length_eq := by
    rw [length_lastN, ← keys_all, List.toFinset_card_of_nodup (nodup_keys (all_sorted log)), List.length_map]
  last x hx := mem_all.mp (List.mem_of_mem_drop hx)
  later x hx y hy hout := by
    have hsorted : Sorted key (all key log) := all_sorted log
    obtain ⟨z, hz, hk⟩ : ∃ z ∈ all key log, key z = key y := by
      have hmem : key y ∈ ((all key log).map key).toFinset := by
        rw [keys_all]
        simp [List.mem_map_of_mem hy]
      simpa using hmem
    rw [← hk] at hout ⊢
    rw [← List.take_append_drop ((all key log).length - cap) (all key log)] at hsorted hz
    rcases List.mem_append.mp hz with hz | hz
    · exact (List.pairwise_append.mp hsorted).2.2 z hz x hx
    · exact absurd (List.mem_map_of_mem hz) hout

end LatestKeys
