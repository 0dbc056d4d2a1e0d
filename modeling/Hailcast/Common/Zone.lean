import Hailcast.Common.Python

/-!
# Time zones

The readings of a zone's clocks are numbers of microseconds like the instants, and `zoneinfo` is kept by what it
answers: the offset at an instant, and the instant of a reading with `fold=0`.
-/

namespace Hailcast

structure Zone where
  offset : Int → Int
  utcOf : Int → Int
  /-- A reading that the clocks show somewhere names an instant at which they show it. -/
  shows : ∀ t, utcOf (t + offset t) + offset (utcOf (t + offset t)) = t + offset t

namespace Zone

variable (zone : Zone)

/-- `t.astimezone(zone)` -/
def wallAt (t : Int) : Int := t + zone.offset t

def Exists (wall : Int) : Prop := ∃ t, zone.wallAt t = wall

theorem wallAt_utcOf {wall : Int} (h : zone.Exists wall) : zone.wallAt (zone.utcOf wall) = wall := by
  obtain ⟨t, rfl⟩ := h
  exact zone.shows t

/-- The clocks have shown this reading before. -/
def Repeated (t : Int) : Prop := ∃ t', t' < t ∧ zone.wallAt t' = zone.wallAt t

/-- A zone like that of New York: the clocks differ by full hours and are set at full hours, back by one hour at
most; a reading with `fold=0` is the earlier instant. -/
structure Hourly : Prop where
  whole : ∀ t, hourMicros ∣ zone.offset t
  atHours : ∀ t, zone.offset (floorToHour t) = zone.offset t
  back : ∀ t, zone.wallAt t ≤ zone.wallAt (t + hourMicros)
  earliest : ∀ t, zone.utcOf (zone.wallAt t) ≤ t

variable {zone}

/-- Read back without `fold`, a reading is the instant itself unless it is a repeated one. -/
theorem Hourly.utcOf_wallAt_iff (h : zone.Hourly) (t : Int) : zone.utcOf (zone.wallAt t) = t ↔ ¬ zone.Repeated t := by
  constructor
  · rintro heq ⟨t', hlt, hwall⟩
    have hle := h.earliest t'
    rw [hwall, heq] at hle
    omega
  · intro hfirst
    have hle := h.earliest t
    by_contra hne
    exact hfirst ⟨_, lt_of_le_of_ne hle hne, zone.wallAt_utcOf ⟨t, rfl⟩⟩

theorem Hourly.floorToHour_wallAt (h : zone.Hourly) (t : Int) :
    floorToHour (zone.wallAt t) = zone.wallAt (floorToHour t) := by
  obtain ⟨k, hk⟩ := h.whole t
  unfold wallAt
  rw [h.atHours, hk]
  unfold floorToHour hourMicros
  omega

theorem Hourly.wallAt_mono (h : zone.Hourly) (t : Int) {k l : ℕ} (hkl : k ≤ l) :
    zone.wallAt (t + k * hourMicros) ≤ zone.wallAt (t + l * hourMicros) := by
  induction hkl with
  | refl => exact le_refl _
  | @step l _ ih =>
      have hnext : t + ((l + 1 : ℕ) : Int) * hourMicros = t + l * hourMicros + hourMicros := by
        push_cast
        ring
      rw [Nat.succ_eq_add_one, hnext]
      exact ih.trans (h.back _)

/-- A repeated reading was shown an hour before. -/
theorem Hourly.repeated_iff (h : zone.Hourly) (t : Int) :
    zone.Repeated t ↔ zone.wallAt (t - hourMicros) = zone.wallAt t := by
  constructor
  · rintro ⟨t', hlt, hwall⟩
    obtain ⟨k, hk⟩ := h.whole t
    obtain ⟨k', hk'⟩ := h.whole t'
    have hback := h.back (t - hourMicros)
    rw [sub_add_cancel] at hback
    -- the two instants are full hours apart, and in between the clocks never go back
    have hmono := h.wallAt_mono t' (Nat.zero_le (k' - k - 1).toNat)
    have hlast : t' + ((k' - k - 1).toNat : Int) * hourMicros = t - hourMicros := by
      simp only [wallAt, hk, hk', hourMicros] at hwall ⊢
      omega
    simp only [hlast, Nat.cast_zero, zero_mul, add_zero, hwall] at hmono
    exact le_antisymm hback hmono
  · intro hwall
    exact ⟨t - hourMicros, by simp only [hourMicros]; omega, hwall⟩

end Zone

/-- New York with the daylight-saving time of 2026: from 2026-03-08 07:00 UTC to 2026-11-01 06:00 UTC. -/
def newYork : Zone where
  offset t := if 1772953200000000 ≤ t ∧ t < 1793512800000000 then -4 * hourMicros else -5 * hourMicros
  utcOf wall :=
    if 1772953200000000 - 4 * hourMicros ≤ wall ∧ wall < 1793512800000000 - 4 * hourMicros then wall + 4 * hourMicros
    else wall + 5 * hourMicros
  shows t := by
    simp only [hourMicros]
    split <;> split <;> split <;> omega

theorem newYork_hourly : newYork.Hourly where
  whole t := by
    simp only [newYork]
    split <;> exact Dvd.intro_left _ rfl
  atHours t := by
    have hsummer : (1772953200000000 ≤ floorToHour t ∧ floorToHour t < 1793512800000000) ↔
        (1772953200000000 ≤ t ∧ t < 1793512800000000) := by
      simp only [floorToHour, hourMicros]
      omega
    simp only [newYork, hsummer]
  back t := by
    simp only [Zone.wallAt, newYork, hourMicros]
    split_ifs <;> omega
  earliest t := by
    simp only [Zone.wallAt, newYork, hourMicros]
    split_ifs <;> omega

end Hailcast
