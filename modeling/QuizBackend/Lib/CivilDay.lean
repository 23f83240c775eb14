import QuizBackend.Lib.Calendar

/-!
# Year, month and day

The calendar date of a day number, as `Date.prototype.getUTCFullYear` and its kin read it, and the
way back. They are inverse on every day (`dayNumber_civil`), which is where the lengths of the
months, the leap days and the eras of `Calendar` are paid for once.
-/

namespace QuizBackend.Lib

/-- A date of the Gregorian calendar. -/
structure Civil where
  year : Int
  month : Nat
  day : Nat

def civilOf (era yoe doy : Int) : Civil :=
  let mp := (5 * doy + 2) / 153
  let month := if mp < 10 then mp + 3 else mp - 9
  { year := era * 400 + yoe + (if month ≤ 2 then 1 else 0)
    month := month.toNat
    day := (monthDay doy + 1).toNat }

/-- `getUTCFullYear`, `getUTCMonth() + 1` and `getUTCDate` of a day. -/
def civil (d : Int) : Civil :=
  let z := d + 719468
  let doe := z % 146097
  civilOf (z / 146097) (yearOfEra doe) (doe - yearStart (yearOfEra doe))

/-- Days from 1970-01-01 to a date. -/
def dayNumber (c : Civil) : Int :=
  let y := if c.month ≤ 2 then c.year - 1 else c.year
  let mp : Int := if c.month ≤ 2 then c.month + 9 else c.month - 3
  let doe := yearStart (y % 400) + ((153 * mp + 2) / 5 + c.day - 1)
  y / 400 * 146097 + doe - 719468

theorem yearOfEra_bounds {doe : Int} (h0 : 0 ≤ doe) (h : doe ≤ 146096) :
    0 ≤ yearOfEra doe ∧ yearOfEra doe ≤ 399 :=
  ⟨yearOfEra_mono (a := 0) h0, yearOfEra_mono (b := 146096) h⟩

theorem dayOfYear_bounds {doe : Int} (h0 : 0 ≤ doe) (h : doe ≤ 146096) :
    0 ≤ doe - yearStart (yearOfEra doe) ∧ doe - yearStart (yearOfEra doe) ≤ 365 := by
  obtain ⟨hy0, hy⟩ := yearOfEra_bounds h0 h
  constructor
  · by_cases hzero : yearOfEra doe = 0
    · rw [hzero, show yearStart 0 = 0 from rfl]
      omega
    · have hnot : ¬ doe < yearStart (yearOfEra doe) := fun hlt =>
        absurd ((yearOfEra_lt_iff (by omega) hy).mpr hlt) (Int.lt_irrefl _)
      omega
  · by_cases hlast : yearOfEra doe = 399
    · rw [hlast, show yearStart 399 = 145731 from rfl]
      omega
    · have hlt := (yearOfEra_lt_iff (a := doe) (y := yearOfEra doe + 1) (by omega) (by omega)).mp
        (by omega)
      unfold yearStart at *
      omega

theorem dayNumber_civilOf {era yoe doy : Int} (hy0 : 0 ≤ yoe) (hy : yoe ≤ 399) (hd0 : 0 ≤ doy)
    (hd : doy ≤ 365) :
    dayNumber (civilOf era yoe doy) = era * 146097 + (yearStart yoe + doy) - 719468 := by
  have hday := monthDay_nonneg doy
  have hsplit : (153 * ((5 * doy + 2) / 153) + 2) / 5 + monthDay doy = doy := by
    unfold monthDay
    omega
  simp only [civilOf, dayNumber]
  by_cases hspring : (5 * doy + 2) / 153 < 10
  · have hmonth : ¬ ((5 * doy + 2) / 153 + 3).toNat ≤ 2 := by omega
    have hmonth' : ¬ (5 * doy + 2) / 153 + 3 ≤ 2 := by omega
    simp only [if_pos hspring, if_neg hmonth, if_neg hmonth']
    rw [show (era * 400 + yoe + 0) % 400 = yoe by omega,
      show (((5 * doy + 2) / 153 + 3).toNat : Int) - 3 = (5 * doy + 2) / 153 by omega]
    omega
  · have hmonth : ((5 * doy + 2) / 153 - 9).toNat ≤ 2 := by omega
    have hmonth' : (5 * doy + 2) / 153 - 9 ≤ 2 := by omega
    simp only [if_neg hspring, if_pos hmonth, if_pos hmonth']
    rw [show (era * 400 + yoe + 1 - 1) % 400 = yoe by omega,
      show (((5 * doy + 2) / 153 - 9).toNat : Int) + 9 = (5 * doy + 2) / 153 by omega]
    omega

/-- **The date of a day leads back to it.** -/
theorem dayNumber_civil (d : Int) : dayNumber (civil d) = d := by
  obtain ⟨hy0, hy⟩ := @yearOfEra_bounds ((d + 719468) % 146097) (by omega) (by omega)
  obtain ⟨hd0, hd⟩ := @dayOfYear_bounds ((d + 719468) % 146097) (by omega) (by omega)
  simp only [civil]
  rw [dayNumber_civilOf hy0 hy hd0 hd]
  omega

theorem civil_month (d : Int) : 1 ≤ (civil d).month ∧ (civil d).month ≤ 12 := by
  obtain ⟨hd0, hd⟩ := @dayOfYear_bounds ((d + 719468) % 146097) (by omega) (by omega)
  simp only [civil, civilOf]
  split <;> omega

theorem civil_day (d : Int) : 1 ≤ (civil d).day ∧ (civil d).day ≤ 31 := by
  have hday := monthDay_nonneg ((d + 719468) % 146097 -
    yearStart (yearOfEra ((d + 719468) % 146097)))
  simp only [civil, civilOf]
  unfold monthDay at *
  omega

end QuizBackend.Lib
