import Hailcast.Lib.Dict
import Hailcast.Lib.ExtRat
import Mathlib.Data.List.Dedup

/-!
# Labelled series

Values under labels that are all different. Operations on two series go label by label: a label that only one of them
has gets NaN.
-/

/-- `value` is read at the labels of `index` only. -/
structure Series (κ : Type*) where
  index : List κ
  value : κ → ExtRat

namespace Series

variable {κ : Type*} [DecidableEq κ]

/-- The value of the label, NaN where there is none. -/
def get (s : Series κ) (k : κ) : ExtRat := if k ∈ s.index then s.value k else .nan

/-- The series of a dictionary. -/
def ofEntries (entries : List (κ × ℚ)) : Series κ where
  index := (entries.map Prod.fst).dedup
  value k := ((Dict.lookup k entries).map ExtRat.fin).getD .nan

def map (f : ExtRat → ExtRat) (s : Series κ) : Series κ := ⟨s.index, fun k => f (s.value k)⟩

def mean (s : Series κ) : ExtRat := ExtRat.mean (s.index.map s.value)

/-- An operation on two series, over the labels of both. -/
def align (f : ExtRat → ExtRat → ExtRat) (s t : Series κ) : Series κ where
  index := s.index ++ t.index.filter (fun k => k ∉ s.index)
  value k := if k ∈ s.index ∧ k ∈ t.index then f (s.value k) (t.value k) else .nan

/-- The series over these labels; a new one gets NaN. -/
def reindex (index : List κ) (s : Series κ) : Series κ := ⟨index, s.get⟩

def fillna (fill : ExtRat) (s : Series κ) : Series κ := s.map fun a => if a = .nan then fill else a

/-- The means of the values with each key. -/
def groupMean (pairs : List (κ × ExtRat)) : Series κ where
  index := (pairs.map Prod.fst).dedup
  value k := ExtRat.mean ((pairs.filter (fun p => p.1 = k)).map Prod.snd)

variable {s t : Series κ} {k : κ}

theorem get_of_mem (h : k ∈ s.index) : s.get k = s.value k := if_pos h

theorem get_map {f : ExtRat → ExtRat} (h : k ∈ s.index) : (s.map f).get k = f (s.get k) := by
  rw [get_of_mem h, get_of_mem (s := s.map f) h]
  rfl

theorem get_align {f : ExtRat → ExtRat → ExtRat} (hs : k ∈ s.index) (ht : k ∈ t.index) :
    (align f s t).get k = f (s.get k) (t.get k) := by
  have hmem : k ∈ (align f s t).index := List.mem_append_left _ hs
  rw [get_of_mem hmem, get_of_mem hs, get_of_mem ht]
  exact if_pos ⟨hs, ht⟩

theorem get_reindex {index : List κ} (h : k ∈ index) : (s.reindex index).get k = s.get k := if_pos h

theorem get_fillna {fill : ExtRat} (h : k ∈ s.index) :
    (s.fillna fill).get k = if s.get k = .nan then fill else s.get k := get_map h

theorem get_ofEntries {entries : List (κ × ℚ)} {q : ℚ} (h : Dict.lookup k entries = some q) :
    (ofEntries entries).get k = .fin q := by
  have hmem : k ∈ (ofEntries entries).index := by
    have hsome := (Dict.lookup_isSome k entries).mp (by rw [h]; rfl)
    exact List.mem_dedup.mpr hsome
  rw [get_of_mem hmem]
  simp [ofEntries, h]

/-! ## Groups of numbers -/

/-- The numbers with this key. -/
def group (k : κ) (pairs : List (κ × ℚ)) : List ℚ := (pairs.filter (fun p => p.1 = k)).map Prod.snd

variable {pairs : List (κ × ℚ)}

theorem mem_group {q : ℚ} : q ∈ group k pairs ↔ (k, q) ∈ pairs := by
  unfold group
  constructor
  · intro h
    obtain ⟨⟨k', q'⟩, hp, rfl⟩ := List.mem_map.mp h
    obtain ⟨hmem, hk⟩ := List.mem_filter.mp hp
    obtain rfl := of_decide_eq_true hk
    exact hmem
  · intro h
    exact List.mem_map.mpr ⟨(k, q), List.mem_filter.mpr ⟨h, by simp⟩, rfl⟩

/-- The mean of the group of a key. -/
def groupAverage (k : κ) (pairs : List (κ × ℚ)) : ℚ := (group k pairs).sum / (group k pairs).length

def finPairs (pairs : List (κ × ℚ)) : List (κ × ExtRat) := pairs.map fun p => (p.1, .fin p.2)

theorem mem_index_groupMean : k ∈ (groupMean (finPairs pairs)).index ↔ ∃ q, (k, q) ∈ pairs := by
  simp [groupMean, finPairs]

theorem value_groupMean (h : ∃ q, (k, q) ∈ pairs) :
    (groupMean (finPairs pairs)).value k = .fin (groupAverage k pairs) := by
  obtain ⟨q, hq⟩ := h
  have hvalues : ((finPairs pairs).filter (fun p => p.1 = k)).map Prod.snd = (group k pairs).map ExtRat.fin := by
    unfold finPairs group
    rw [List.filter_map, List.map_map, List.map_map]
    rfl
  have hne : group k pairs ≠ [] := List.ne_nil_of_mem (mem_group.mpr hq)
  change ExtRat.mean _ = _
  rw [hvalues, ExtRat.mean_fin hne]
  rfl

theorem get_groupMean (h : ∃ q, (k, q) ∈ pairs) :
    (groupMean (finPairs pairs)).get k = .fin (groupAverage k pairs) := by
  rw [get_of_mem (mem_index_groupMean.mpr h), value_groupMean h]

section Nonnegative

variable (hpairs : ∀ p ∈ pairs, 0 ≤ p.2)

include hpairs

theorem groupAverage_nonneg (k : κ) : 0 ≤ groupAverage k pairs :=
  ExtRat.mean_nonneg fun q hq => hpairs (k, q) (mem_group.mp hq)

theorem groupAverage_pos_iff : 0 < groupAverage k pairs ↔ ∃ q, (k, q) ∈ pairs ∧ 0 < q := by
  unfold groupAverage
  rw [ExtRat.mean_pos_iff fun q hq => hpairs (k, q) (mem_group.mp hq)]
  simp only [mem_group]

/-- The mean of the groups' means is zero or positive as the numbers are. -/
theorem mean_groupMean (hne : pairs ≠ []) :
    ∃ m, (groupMean (finPairs pairs)).mean = .fin m ∧ 0 ≤ m ∧ (0 < m ↔ ∃ p ∈ pairs, 0 < p.2) := by
  set averages := (groupMean (finPairs pairs)).index.map fun k => groupAverage k pairs with haverages
  have hvalues : (groupMean (finPairs pairs)).index.map (groupMean (finPairs pairs)).value =
      averages.map ExtRat.fin := by
    rw [haverages, List.map_map]
    apply List.map_congr_left
    intro k hk
    exact value_groupMean (mem_index_groupMean.mp hk)
  have hnonneg : ∀ a ∈ averages, 0 ≤ a := by
    intro a ha
    obtain ⟨k, -, rfl⟩ := List.mem_map.mp ha
    exact groupAverage_nonneg hpairs k
  have haverages_ne : averages ≠ [] := by
    obtain ⟨p, rest, rfl⟩ := List.exists_cons_of_ne_nil hne
    have hmem := mem_index_groupMean.mpr ⟨p.2, List.mem_cons_self (a := p) (l := rest)⟩
    exact List.ne_nil_of_mem (List.mem_map_of_mem hmem)
  refine ⟨averages.sum / averages.length, ?_, ExtRat.mean_nonneg hnonneg, ?_⟩
  · unfold mean
    rw [hvalues, ExtRat.mean_fin haverages_ne]
  · rw [ExtRat.mean_pos_iff hnonneg]
    constructor
    · rintro ⟨a, ha, hpos⟩
      obtain ⟨k, -, rfl⟩ := List.mem_map.mp ha
      obtain ⟨q, hq, hqpos⟩ := (groupAverage_pos_iff hpairs).mp hpos
      exact ⟨(k, q), hq, hqpos⟩
    · rintro ⟨⟨k, q⟩, hp, hpos⟩
      refine ⟨_, List.mem_map_of_mem (mem_index_groupMean.mpr ⟨q, hp⟩), ?_⟩
      exact (groupAverage_pos_iff hpairs).mpr ⟨q, hp, hpos⟩

end Nonnegative

end Series
