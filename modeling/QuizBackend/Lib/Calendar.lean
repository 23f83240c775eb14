import Mathlib.Data.Int.Init

/-!
# UTC calendar arithmetic

An instant is a number of milliseconds since 1970-01-01T00:00:00Z and a calendar day is a
number of days since that date; both run over `Int`, so dates before the epoch need no case of
their own. `date_trunc` of a database maps an instant to the first instant of the day, ISO week
or month around it, and is the only thing the period logic asks of a calendar.

The proleptic Gregorian month of a day is computed the usual way, in years that begin on
1 March: there every month but the last has its length given by one linear formula, and leap
days fall at the end of the year.
-/

namespace QuizBackend.Lib

def msPerDay : Int := 86400000

/-- The number of the day, from 1970-01-01. -/
def utcDay (t : Int) : Int := t / msPerDay

/-- The Monday of the ISO week of a day; 1970-01-01 was a Thursday. -/
def weekStart (d : Int) : Int := d - (d + 3) % 7

def dayOfMonth (d : Int) : Int :=
  -- days since 0000-03-01, cut into 400-year eras of 146097 days
  let z := d + 719468
  let doe := z % 146097
  let yoe := (doe - doe / 1460 + doe / 36524 - doe / 146096) / 365
  let doy := doe - (365 * yoe + yoe / 4 - yoe / 100)
  let mp := (5 * doy + 2) / 153
  doy - (153 * mp + 2) / 5

def monthStart (d : Int) : Int := d - dayOfMonth d

/-- `date_trunc('day', t)`, in UTC. -/
def dateTruncDay (t : Int) : Int := utcDay t * msPerDay

/-- `date_trunc('week', t)`: Monday. -/
def dateTruncWeek (t : Int) : Int := weekStart (utcDay t) * msPerDay

/-- `date_trunc('month', t)`. -/
def dateTruncMonth (t : Int) : Int := monthStart (utcDay t) * msPerDay

theorem utcDay_mono {s t : Int} (h : s ≤ t) : utcDay s ≤ utcDay t :=
  Int.ediv_le_ediv (by decide) h

theorem dateTruncDay_lt_iff {s t : Int} :
    dateTruncDay s < dateTruncDay t ↔ utcDay s < utcDay t := by
  unfold dateTruncDay msPerDay
  omega

theorem dateTruncDay_le {s t : Int} (h : utcDay s ≤ utcDay t) : dateTruncDay s ≤ t := by
  unfold dateTruncDay
  unfold utcDay msPerDay at *
  omega

theorem weekStart_mono {d e : Int} (h : d ≤ e) : weekStart d ≤ weekStart e := by
  unfold weekStart
  omega

/-! ## Months in order

The months of the calendar are intervals of days: the first day of the month never goes back from
one day to the next. The day of the month goes up by one or back to `0`, which is where a month, a
year or an era ends; that each year of the era ends where `yearStart` says is checked year by year. -/

def yearOfEra (doe : Int) : Int :=
  (doe - doe / 1460 + doe / 36524 - doe / 146096) / 365

def yearStart (yoe : Int) : Int := 365 * yoe + yoe / 4 - yoe / 100

def monthDay (doy : Int) : Int := doy - (153 * ((5 * doy + 2) / 153) + 2) / 5

theorem dayOfMonth_eq {d doe : Int} (h : (d + 719468) % 146097 = doe) :
    dayOfMonth d = monthDay (doe - yearStart (yearOfEra doe)) := by
  subst h
  rfl

theorem yearOfEra_mono {a b : Int} (h : a ≤ b) : yearOfEra a ≤ yearOfEra b := by
  have hsucc : ∀ c, yearOfEra c ≤ yearOfEra (c + 1) := by
    intro c
    unfold yearOfEra
    refine Int.ediv_le_ediv (by decide) ?_
    omega
  induction b, h using Int.leInduction with
  | base => exact Int.le_refl _
  | succ b _ ih => exact Int.le_trans ih (hsucc b)

theorem yearOfEra_yearStart : ∀ y : Fin 399,
    yearOfEra (yearStart (y.val + 1)) = y.val + 1 ∧
      yearOfEra (yearStart (y.val + 1) - 1) = y.val := by
  decide +kernel

theorem yearOfEra_lt_iff {a y : Int} (h0 : 0 < y) (h : y ≤ 399) :
    yearOfEra a < y ↔ a < yearStart y := by
  obtain ⟨n, rfl⟩ : ∃ n : Nat, y = n + 1 := ⟨(y - 1).toNat, by omega⟩
  obtain ⟨hfirst, hbefore⟩ := yearOfEra_yearStart ⟨n, by omega⟩
  simp only at hfirst hbefore
  constructor
  · intro hlt
    refine Int.not_le.mp ?_
    intro hle
    have hmono := yearOfEra_mono (a := yearStart (n + 1)) (b := a) hle
    omega
  · intro hlt
    have hmono := yearOfEra_mono (a := a) (b := yearStart (n + 1) - 1) (by omega)
    omega

theorem monthDay_nonneg (doy : Int) : 0 ≤ monthDay doy := by
  unfold monthDay
  omega

theorem monthDay_succ_le (doy : Int) : monthDay (doy + 1) ≤ monthDay doy + 1 := by
  unfold monthDay
  omega

theorem dayOfMonth_succ_le (d : Int) : dayOfMonth (d + 1) ≤ dayOfMonth d + 1 := by
  obtain ⟨a, ha⟩ : ∃ a, (d + 719468) % 146097 = a := ⟨_, rfl⟩
  have hnn := monthDay_nonneg (a - yearStart (yearOfEra a))
  by_cases hlast : a = 146096
  · -- the last day of the era
    have hb : (d + 1 + 719468) % 146097 = 0 := by omega
    rw [dayOfMonth_eq ha, dayOfMonth_eq hb]
    have hzero : monthDay (0 - yearStart (yearOfEra 0)) = 0 := by decide
    omega
  · have hb : (d + 1 + 719468) % 146097 = a + 1 := by omega
    have hle : yearOfEra a ≤ yearOfEra (a + 1) := yearOfEra_mono (by omega)
    rw [dayOfMonth_eq ha, dayOfMonth_eq hb]
    by_cases hyear : yearOfEra (a + 1) = yearOfEra a
    · rw [hyear, show a + 1 - yearStart (yearOfEra a) = a - yearStart (yearOfEra a) + 1 by omega]
      exact monthDay_succ_le _
    · -- the last day of a year
      have h0 : 0 ≤ yearOfEra a := yearOfEra_mono (a := 0) (by omega)
      have h399 : yearOfEra (a + 1) ≤ 399 := yearOfEra_mono (b := 146096) (by omega)
      have hbefore : a < yearStart (yearOfEra (a + 1)) :=
        (yearOfEra_lt_iff (by omega) h399).mp (by omega)
      have hfrom : ¬ a + 1 < yearStart (yearOfEra (a + 1)) := fun hlt =>
        absurd ((yearOfEra_lt_iff (by omega) h399).mpr hlt) (by omega)
      rw [show a + 1 - yearStart (yearOfEra (a + 1)) = 0 by omega]
      have hzero : monthDay 0 = 0 := by decide
      omega

theorem monthStart_mono {d e : Int} (h : d ≤ e) : monthStart d ≤ monthStart e := by
  induction e, h using Int.leInduction with
  | base => exact Int.le_refl _
  | succ e _ ih =>
    have hsucc := dayOfMonth_succ_le e
    unfold monthStart at *
    omega

/-! ## The text of an instant -/

def zeroPadded (width n : Nat) : String :=
  let digits := toString n
  "".pushn '0' (width - digits.length) ++ digits

/-- `Date.prototype.toISOString`, for the years 0 to 9999. -/
def toISOString (t : Int) : String :=
  let z := utcDay t + 719468
  let doe := z % 146097
  let doy := doe - yearStart (yearOfEra doe)
  let mp := (5 * doy + 2) / 153
  -- the year of the calendar begins in January, ten months into the year of the era
  let month := if mp < 10 then mp + 3 else mp - 9
  let year := z / 146097 * 400 + yearOfEra doe + (if month ≤ 2 then 1 else 0)
  let ms := (t % msPerDay).toNat
  zeroPadded 4 year.toNat ++ "-" ++ zeroPadded 2 month.toNat ++ "-" ++
    zeroPadded 2 (monthDay doy + 1).toNat ++ "T" ++ zeroPadded 2 (ms / 3600000) ++ ":" ++
    zeroPadded 2 (ms / 60000 % 60) ++ ":" ++ zeroPadded 2 (ms / 1000 % 60) ++ "." ++
    zeroPadded 3 (ms % 1000) ++ "Z"

/-- A `timestamptz` as PostgreSQL prints it in a session at UTC: a space for the `T`, a fraction only
if there is one, without its trailing zeros, and the offset. -/
def timestamptzText (t : Int) : String :=
  let iso := (toISOString t).toList
  let fraction := ((iso.drop 20).take 3).reverse.dropWhile (· = '0') |>.reverse
  String.ofList (iso.take 10 ++ ' ' :: (iso.drop 11).take 8 ++
    (if fraction.isEmpty then [] else '.' :: fraction) ++ ['+', '0', '0'])

example : timestamptzText 86400120 = "1970-01-02 00:00:00.12+00" := by decide +kernel

end QuizBackend.Lib
