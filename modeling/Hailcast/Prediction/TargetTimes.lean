import Hailcast.Prediction.Selection

/-!
# The hours that a forecast publishes

The labels of the weather rows are readings of the local clocks, and the target times of the items instants.
-/

namespace Hailcast

variable {zone : Zone} {rows : List WeatherRow} {clock : Int}

def halfHourMicros : Int := 1800000000

/-- The rows have the labels of the half-hours from the current hour on. -/
def HalfHourly (zone : Zone) (clock : Int) (rows : List WeatherRow) : Prop :=
  rows.map WeatherRow.time =
    (List.range rows.length).map fun k : ℕ => zone.wallAt (floorToHour clock + k * halfHourMicros)

/-- The `i`-th hour from the current one on. -/
def hourAfter (clock : Int) (i : ℕ) : Int := floorToHour clock + i * hourMicros

/-- The hours of the rows whose readings are later. -/
def laterHours (rows : List WeatherRow) (wall : Int) : Finset Int :=
  (rows.map fun row => floorToHour row.time).toFinset.filter (fun h => wall < h)

theorem wallAt_hourAfter_le (hzone : zone.Hourly) (clock : Int) (i j : ℕ) (hij : i ≤ j) :
    zone.wallAt (hourAfter clock i) ≤ zone.wallAt (hourAfter clock j) := hzone.wallAt_mono (floorToHour clock) hij

theorem floorToHour_halfHour (clock : Int) (k : ℕ) :
    floorToHour (floorToHour clock + k * halfHourMicros) = hourAfter clock (k / 2) := by
  simp only [hourAfter, floorToHour, halfHourMicros, hourMicros]
  omega

theorem mem_upcomingHours_halfHourly (hzone : zone.Hourly) (hrows : HalfHourly zone clock rows) {h : Int} :
    h ∈ upcomingHours zone clock rows ↔ ∃ i : ℕ, 2 * i < rows.length ∧ h = zone.wallAt (hourAfter clock i) := by
  have hhours : (∃ row ∈ rows, floorToHour row.time = h) ↔
      ∃ i : ℕ, 2 * i < rows.length ∧ h = zone.wallAt (hourAfter clock i) := by
    have hmap : (∃ row ∈ rows, floorToHour row.time = h) ↔ ∃ t ∈ rows.map WeatherRow.time, floorToHour t = h := by
      simp
    rw [hmap, hrows]
    constructor
    · rintro ⟨t, ht, rfl⟩
      obtain ⟨k, hk, rfl⟩ := List.mem_map.mp ht
      have hlt := List.mem_range.mp hk
      refine ⟨k / 2, by omega, ?_⟩
      rw [hzone.floorToHour_wallAt, floorToHour_halfHour]
    · rintro ⟨i, hi, rfl⟩
      refine ⟨_, List.mem_map.mpr ⟨2 * i, List.mem_range.mpr hi, rfl⟩, ?_⟩
      rw [hzone.floorToHour_wallAt, floorToHour_halfHour, Nat.mul_div_cancel_left i Nat.two_pos]
  rw [mem_upcomingHours, hhours, and_iff_left_iff_imp]
  rintro ⟨i, -, rfl⟩
  rw [hzone.floorToHour_wallAt]
  have hmono := wallAt_hourAfter_le hzone clock 0 i (Nat.zero_le i)
  simpa [hourAfter] using hmono

/-- As long as the clocks go forward, the hours are the earliest labels. -/
theorem getElem_of_forward {w : ℕ → Int} (hw : ∀ i j, i ≤ j → w i ≤ w j) {u : List Int} (hu : u.Pairwise (· < ·))
    {P : ℕ → Prop} (hP : ∀ i j, i ≤ j → P j → P i) (hmem : ∀ x, x ∈ u ↔ ∃ i, P i ∧ x = w i) {i : ℕ} (hi : i < u.length)
    (hforward : ∀ j, j < i → w j < w (j + 1)) : u[i] = w i := by
  have hsorted := hu.sortedLT
  induction i with
  | zero =>
      obtain ⟨q, hq, heq⟩ := (hmem _).mp (List.getElem_mem hi)
      obtain ⟨p, hp, hpos⟩ := List.getElem_of_mem ((hmem (w 0)).mpr ⟨0, hP 0 q (Nat.zero_le q) hq, rfl⟩)
      have hle : u[0] ≤ w 0 := by
        rw [← hpos]
        exact hsorted.getElem_le_getElem_iff.mpr (Nat.zero_le p)
      have hge : w 0 ≤ u[0] := by
        rw [heq]
        exact hw 0 q (Nat.zero_le q)
      exact le_antisymm hle hge
  | succ i ih =>
      have hprev := ih (Nat.lt_of_succ_lt hi) fun j hj => hforward j (Nat.lt_succ_of_lt hj)
      obtain ⟨q, hq, heq⟩ := (hmem _).mp (List.getElem_mem hi)
      have hstep : u[i] < u[i + 1] := hsorted.getElem_lt_getElem_iff.mpr (Nat.lt_succ_self i)
      -- the next one is a later label, so the label of the next hour is there
      have hlater : i + 1 ≤ q := by
        by_contra hnot
        have hle := hw q i (Nat.lt_succ_iff.mp (not_le.mp hnot))
        omega
      obtain ⟨p, hp, hpos⟩ := List.getElem_of_mem ((hmem (w (i + 1))).mpr ⟨i + 1, hP _ q hlater hq, rfl⟩)
      have hbefore : i < p := by
        have hlt := hforward i (Nat.lt_succ_self i)
        rw [← hpos, ← hprev] at hlt
        exact hsorted.getElem_lt_getElem_iff.mp hlt
      have hle : u[i + 1] ≤ w (i + 1) := by
        rw [← hpos]
        exact hsorted.getElem_le_getElem_iff.mpr hbefore
      have hge : w (i + 1) ≤ u[i + 1] := by
        rw [heq]
        exact hw (i + 1) q hlater
      exact le_antisymm hle hge

theorem prefix_sliceTo {α : Type} (n : Int) (xs : List α) : sliceTo n xs <+: xs := by
  unfold sliceTo
  split <;> exact List.take_prefix _ _

theorem length_sliceTo {α : Type} (n : Int) (xs : List α) :
    ((sliceTo n xs).length : Int) = if 0 ≤ n then min n xs.length else max 0 (xs.length + n) := by
  unfold sliceTo
  split
  · rw [List.length_take]
    omega
  · rw [List.length_take]
    omega

theorem forward_of_not_repeated (hzone : zone.Hourly) {i : ℕ} (h : ¬ zone.Repeated (hourAfter clock (i + 1))) :
    zone.wallAt (hourAfter clock i) < zone.wallAt (hourAfter clock (i + 1)) := by
  have hle := wallAt_hourAfter_le hzone clock i (i + 1) (Nat.le_succ i)
  refine lt_of_le_of_ne hle fun heq => h ⟨hourAfter clock i, ?_, heq⟩
  simp only [hourAfter, hourMicros]
  push_cast
  omega

theorem wallAt_of_repeated (hzone : zone.Hourly) {i : ℕ} (h : zone.Repeated (hourAfter clock (i + 1))) :
    zone.wallAt (hourAfter clock i) = zone.wallAt (hourAfter clock (i + 1)) := by
  have hbefore : hourAfter clock (i + 1) - hourMicros = hourAfter clock i := by
    simp only [hourAfter, hourMicros]
    push_cast
    omega
  have hwall := (hzone.repeated_iff _).mp h
  rwa [hbefore] at hwall

section HalfHourly

variable (hzone : zone.Hourly) (hrows : HalfHourly zone clock rows)
include hzone hrows

theorem getElem_upcomingHours {i : ℕ} (hi : i < (upcomingHours zone clock rows).length)
    (hfirst : ∀ j, j ≤ i → ¬ zone.Repeated (hourAfter clock j)) :
    (upcomingHours zone clock rows)[i] = zone.wallAt (hourAfter clock i) := by
  refine getElem_of_forward (wallAt_hourAfter_le hzone clock) (pairwise_upcomingHours zone clock rows)
    (P := fun j => 2 * j < rows.length) ?_ (fun x => mem_upcomingHours_halfHourly hzone hrows) hi ?_
  · intro j k hjk hk
    omega
  · intro j hj
    exact forward_of_not_repeated hzone (hfirst (j + 1) hj)

/-- The first hours of the rows are the consecutive ones if and only if none of these is a repeated one. -/
theorem consecutive_iff {hours : List Int} (hpre : hours <+: upcomingHours zone clock rows) :
    hours.map zone.utcOf = (List.range hours.length).map (hourAfter clock) ↔
      ∀ i, i < hours.length → ¬ zone.Repeated (hourAfter clock i) := by
  constructor
  · intro hsame i hi
    have hutc : zone.utcOf hours[i] = hourAfter clock i := by
      have hpos := List.getElem_of_eq hsame (i := i) (by simpa using hi)
      simpa using hpos
    obtain ⟨q, -, heq⟩ :=
      (mem_upcomingHours_halfHourly hzone hrows).mp (hpre.subset (List.getElem_mem hi))
    -- the hour is one that the clocks show, so it is the reading of the instant that is published for it
    have hwall : zone.wallAt (hourAfter clock i) = hours[i] := by
      rw [← hutc]
      exact zone.wallAt_utcOf ⟨_, heq.symm⟩
    rw [← hzone.utcOf_wallAt_iff, hwall]
    exact hutc
  · intro hfirst
    refine List.ext_getElem (by simp) fun i hi _ => ?_
    simp only [List.length_map] at hi
    have hlabel : hours[i] = zone.wallAt (hourAfter clock i) := by
      rw [hpre.getElem hi]
      exact getElem_upcomingHours hzone hrows _ fun j hj => hfirst j (lt_of_le_of_lt hj hi)
    have hutc := (hzone.utcOf_wallAt_iff (hourAfter clock i)).mpr (hfirst i hi)
    simpa [hlabel] using hutc

omit hrows in
theorem mem_of_mem_laterHours {i : ℕ} {h : Int} (hlater : h ∈ laterHours rows (zone.wallAt (hourAfter clock i))) :
    h ∈ upcomingHours zone clock rows := by
  obtain ⟨hrow, hlt⟩ := Finset.mem_filter.mp hlater
  refine mem_upcomingHours.mpr ⟨by simpa using hrow, ?_⟩
  rw [hzone.floorToHour_wallAt]
  have hmono := wallAt_hourAfter_le hzone clock 0 i (Nat.zero_le i)
  simp only [hourAfter, Nat.cast_zero, zero_mul, add_zero] at hmono hlt ⊢
  omega

/-- After hours that are not repeated ones, no more hours are later than there are left. -/
theorem card_laterHours_le {n i : ℕ} (hn : n ≤ i) (hfirst : ∀ j, j < n → ¬ zone.Repeated (hourAfter clock j)) :
    (laterHours rows (zone.wallAt (hourAfter clock i))).card ≤ (upcomingHours zone clock rows).length - n := by
  have hsub : laterHours rows (zone.wallAt (hourAfter clock i)) ⊆
      ((upcomingHours zone clock rows).drop n).toFinset := by
    intro h hlater
    obtain ⟨p, hp, rfl⟩ := List.getElem_of_mem (mem_of_mem_laterHours hzone hlater)
    have hskipped : n ≤ p := by
      by_contra hnot
      have hle := wallAt_hourAfter_le hzone clock p i (by omega)
      have hlt := (Finset.mem_filter.mp hlater).2
      rw [getElem_upcomingHours hzone hrows hp fun j hj => hfirst j (by omega)] at hlt
      exact absurd hle (not_le.mpr hlt)
    exact List.mem_toFinset.mpr (List.mem_drop_iff_getElem.mpr ⟨p - n, by omega, by simp [hskipped]⟩)
  calc (laterHours rows (zone.wallAt (hourAfter clock i))).card
    _ ≤ ((upcomingHours zone clock rows).drop n).toFinset.card := Finset.card_le_card hsub
    _ ≤ ((upcomingHours zone clock rows).drop n).length := List.toFinset_card_le _
    _ = (upcomingHours zone clock rows).length - n := List.length_drop

theorem le_card_laterHours {i : ℕ} (hfirst : ∀ j, j ≤ i → ¬ zone.Repeated (hourAfter clock j))
    (hrep : zone.Repeated (hourAfter clock (i + 1))) :
    (upcomingHours zone clock rows).length - (i + 1) ≤
      (laterHours rows (zone.wallAt (hourAfter clock (i + 1)))).card := by
  have hsorted := (pairwise_upcomingHours zone clock rows).sortedLT
  have hsub : ((upcomingHours zone clock rows).drop (i + 1)).toFinset ⊆
      laterHours rows (zone.wallAt (hourAfter clock (i + 1))) := by
    intro h hdrop
    obtain ⟨p, hp, rfl⟩ := List.mem_drop_iff_getElem.mp (List.mem_toFinset.mp hdrop)
    have hmem := mem_upcomingHours.mp
      (List.getElem_mem (l := upcomingHours zone clock rows) (n := i + 1 + p) (by omega))
    refine Finset.mem_filter.mpr ⟨by simpa using hmem.1, ?_⟩
    rw [← wallAt_of_repeated hzone hrep, ← getElem_upcomingHours hzone hrows (by omega) hfirst]
    exact hsorted.getElem_lt_getElem_iff.mpr (by omega)
  have hnodup : ((upcomingHours zone clock rows).drop (i + 1)).Nodup := hsorted.nodup.sublist (List.drop_sublist _ _)
  calc (upcomingHours zone clock rows).length - (i + 1)
    _ = ((upcomingHours zone clock rows).drop (i + 1)).length := List.length_drop.symm
    _ = ((upcomingHours zone clock rows).drop (i + 1)).toFinset.card := (List.toFinset_card_of_nodup hnodup).symm
    _ ≤ (laterHours rows (zone.wallAt (hourAfter clock (i + 1)))).card := Finset.card_le_card hsub

/-- The hours that a horizon keeps go past a repeated one if and only if this is the current hour or more hours are
later than a horizon below zero cuts off. -/
theorem not_repeated_iff {n : Int} (hne : sliceTo n (upcomingHours zone clock rows) ≠ []) :
    (∀ i, i < (sliceTo n (upcomingHours zone clock rows)).length → ¬ zone.Repeated (hourAfter clock i)) ↔
      ∀ i : ℕ, zone.Repeated (hourAfter clock i) → 0 < i ∧
        ((0 ≤ n → i < n) → (laterHours rows (zone.wallAt (hourAfter clock i))).card ≤ (-n).toNat) := by
  have hlength := length_sliceTo n (upcomingHours zone clock rows)
  have hpos := List.length_pos_of_ne_nil hne
  constructor
  · intro hfirst i hrep
    have hpast : (sliceTo n (upcomingHours zone clock rows)).length ≤ i := by
      by_contra hnot
      exact hfirst i (not_le.mp hnot) hrep
    refine ⟨by omega, fun hwithin => ?_⟩
    have hle := card_laterHours_le hzone hrows hpast hfirst
    split at hlength <;> omega
  · intro hlast i
    induction i using Nat.strong_induction_on with
    | _ i ih =>
        intro hi hrep
        obtain ⟨hi0, hcard⟩ := hlast i hrep
        cases i with
        | zero => exact absurd hi0 (lt_irrefl 0)
        | succ i =>
            have hge := le_card_laterHours hzone hrows
              (fun j hj => ih j (Nat.lt_succ_of_le hj) (lt_of_le_of_lt (Nat.le_succ_of_le hj) hi)) hrep
            split at hlength
            · have hle := hcard fun _ => by omega
              omega
            · have hle := hcard fun hnonneg => absurd hnonneg ‹_›
              omega

end HalfHourly

end Hailcast
