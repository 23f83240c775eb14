import QuizBackend.Streak.History
import QuizBackend.Lib.CivilDay
import QuizBackend.Lib.Text

/-!
# The streak algorithms on `YYYY-MM-DD`

`Streak.Cache` has the days of a user as numbers; the source has them as texts, compares texts, and
goes through epoch milliseconds and back to subtract a day. On the days of the years 1000 to 9999
that comes to the same (`utcDaySubtract_text`, `formatUtcDay_eq_text_iff`), so the walk and the scan
on texts are those on numbers, and both find what they are to find: the longest runs of consecutive
days, ending today and anywhere (`streaks_spec`).

The walk may leave the four-digit years at its end. `getUTCFullYear` is not padded, so the text it
then stops at is not that of any day of the list.
-/

namespace QuizBackend.Streak.DayText

open Lib

abbrev UtcDayString := String

/-! ## The algorithms -/

def formatUtcDay (ms : Int) : UtcDayString :=
  let c := civil (utcDay ms)
  toString c.year ++ "-" ++ zeroPadded 2 c.month ++ "-" ++ zeroPadded 2 c.day

/-- ``new Date(`${day}T00:00:00Z`).getTime()``, none for `NaN`. -/
def parseUtcMidnight (day : UtcDayString) : Option Int :=
  match day.toList with
  | [y₁, y₂, y₃, y₄, '-', m₁, m₂, '-', d₁, d₂] =>
    let c : Civil :=
      { year := Nat.ofDigitChars 10 [y₁, y₂, y₃, y₄] 0
        month := Nat.ofDigitChars 10 [m₁, m₂] 0
        day := Nat.ofDigitChars 10 [d₁, d₂] 0 }
    if [y₁, y₂, y₃, y₄, m₁, m₂, d₁, d₂].all Char.isDigit ∧ 1 ≤ c.month ∧ c.month ≤ 12 ∧
        1 ≤ c.day ∧ c.day ≤ 31 then
      some (dayNumber c * msPerDay)
    else none
  | _ => none

def utcDaySubtract (day : UtcDayString) (n : Nat) : UtcDayString :=
  match parseUtcMidnight day with
  | some anchor => formatUtcDay (anchor - n * 24 * 60 * 60 * 1000)
  | none => "NaN-NaN-NaN"

/-- The `while` loop of `computeCurrentStreak`; none when it has not ended after `fuel` rounds. -/
def walkBack (days : List UtcDayString) : Nat → Nat → UtcDayString → Option Nat
  | 0, _, _ => none
  | fuel + 1, current, cursor =>
    if cursor ∈ days then walkBack days fuel (current + 1) (utcDaySubtract cursor 1)
    else some current

structure LongestLoop where
  longest : Nat
  prev : Option UtcDayString
  run : Nat

def LongestLoop.next (s : LongestLoop) (d : UtcDayString) : LongestLoop :=
  let run :=
    match s.prev with
    | none => s.run + 1
    | some prev => if d = utcDaySubtract prev 1 then s.run + 1 else 1
  { longest := if run > s.longest then run else s.longest, prev := some d, run }

def computeLongestStreak (days : List UtcDayString) : Nat :=
  (days.foldl LongestLoop.next ⟨0, none, 0⟩).longest

/-! ## Days and their texts -/

structure UtcDay where
  number : Int
  year_ge : 1000 ≤ (civil number).year
  year_le : (civil number).year ≤ 9999

def UtcDay.text (d : UtcDay) : UtcDayString := formatUtcDay (d.number * msPerDay)

example : formatUtcDay (19782 * msPerDay) = "2024-02-29" := by decide +kernel

theorem utcDay_midnight (x : Int) : utcDay (x * msPerDay) = x := by
  unfold utcDay msPerDay
  omega

theorem toList_zeroPadded {n : Nat} (h : n < 100) :
    (zeroPadded 2 n).toList = [(n / 10).digitChar, (n % 10).digitChar] := by
  have hall : ∀ n : Fin 100,
      (zeroPadded 2 n.val).toList = [(n.val / 10).digitChar, (n.val % 10).digitChar] := by
    decide +kernel
  exact hall ⟨n, h⟩

theorem toList_formatUtcDay (x : Int) : (formatUtcDay (x * msPerDay)).toList =
    (toString (civil x).year).toList ++ '-' :: ([((civil x).month / 10).digitChar,
      ((civil x).month % 10).digitChar] ++ '-' :: [((civil x).day / 10).digitChar,
        ((civil x).day % 10).digitChar]) := by
  have hmonth := civil_month x
  have hday := civil_day x
  simp only [formatUtcDay, utcDay_midnight, String.toList_append]
  rw [toList_zeroPadded (by omega), toList_zeroPadded (by omega), List.append_assoc,
    List.append_assoc, List.append_assoc]
  rfl

theorem ofDigitChars_pair {n : Nat} (h : n < 100) :
    Nat.ofDigitChars 10 [(n / 10).digitChar, (n % 10).digitChar] 0 = n ∧
      ((n / 10).digitChar).isDigit ∧ ((n % 10).digitChar).isDigit := by
  have hall : ∀ n : Fin 100,
      Nat.ofDigitChars 10 [(n.val / 10).digitChar, (n.val % 10).digitChar] 0 = n.val ∧
        ((n.val / 10).digitChar).isDigit ∧ ((n.val % 10).digitChar).isDigit := by
    decide +kernel
  exact hall ⟨n, h⟩

theorem parse_format {x : Int} (h : 1000 ≤ (civil x).year) (h' : (civil x).year ≤ 9999) :
    parseUtcMidnight (formatUtcDay (x * msPerDay)) = some (x * msPerDay) := by
  obtain ⟨y, hy⟩ : ∃ y : Nat, (civil x).year = y := ⟨(civil x).year.toNat, by omega⟩
  have hmonth := civil_month x
  have hday := civil_day x
  obtain ⟨hm, hm₁, hm₂⟩ := ofDigitChars_pair (n := (civil x).month) (by omega)
  obtain ⟨hd, hd₁, hd₂⟩ := ofDigitChars_pair (n := (civil x).day) (by omega)
  have hdigits : (toString (civil x).year).toList = Nat.toDigits 10 y := by
    rw [hy]
    exact Nat.toList_repr
  have hlen : (Nat.toDigits 10 y).length = 4 := by
    have hle := (Nat.length_toDigits_le_iff (b := 10) (n := y) (k := 4) (by omega) (by omega)).mpr
      (by omega)
    have hgt := (Nat.length_toDigits_le_iff (b := 10) (n := y) (k := 3) (by omega)
      (by omega)).not.mpr (by omega)
    omega
  obtain ⟨y₁, y₂, y₃, y₄, hyear⟩ := List.length_eq_four.mp hlen
  have hisDigit : ∀ c ∈ [y₁, y₂, y₃, y₄], c.isDigit = true := by
    intro c hc
    rw [← hyear] at hc
    exact Nat.isDigit_of_mem_toDigits (by decide) (by decide) hc
  have hvalue : Nat.ofDigitChars 10 [y₁, y₂, y₃, y₄] 0 = y := by
    rw [← hyear]
    exact Nat.ofDigitChars_ten_toDigits
  simp only [List.forall_mem_cons] at hisDigit
  obtain ⟨hy₁, hy₂, hy₃, hy₄, -⟩ := hisDigit
  have htext := toList_formatUtcDay x
  rw [hdigits, hyear] at htext
  unfold parseUtcMidnight
  rw [htext]
  simp only [List.cons_append, List.nil_append, hm, hd, hvalue]
  rw [if_pos]
  · rw [← hy, dayNumber_civil]
  · simp [hy₁, hy₂, hy₃, hy₄, hm₁, hm₂, hd₁, hd₂, hmonth, hday]

/-- **The text of a day is only its own**, among the texts of all days whatever their year. -/
theorem formatUtcDay_eq_text_iff {x : Int} {d : UtcDay} :
    formatUtcDay (x * msPerDay) = d.text ↔ x = d.number := by
  refine ⟨fun h => ?_, fun h => by rw [h, UtcDay.text]⟩
  obtain ⟨y, hy⟩ : ∃ y : Nat, (civil d.number).year = y :=
    ⟨(civil d.number).year.toNat, by have := d.year_ge; omega⟩
  have hlist := congrArg String.toList h
  rw [UtcDay.text, toList_formatUtcDay, toList_formatUtcDay, hy] at hlist
  have hyear : (civil x).year = (civil d.number).year := by
    cases hx : (civil x).year with
    | ofNat n =>
      rw [hx] at hlist
      rw [hy, (repr_append_inj rfl rfl hlist).1]
      rfl
    | negSucc n =>
      -- a year before the era begins with a sign
      exfalso
      have hsign : (toString (Int.negSucc n)).toList = '-' :: (n + 1).repr.toList := by
        show ("-" ++ (n + 1).repr).toList = _
        rw [String.toList_append]
        rfl
      have hdigits : (toString (y : Int)).toList = Nat.toDigits 10 y := Nat.toList_repr
      obtain ⟨c, cs, hcs⟩ := List.exists_cons_of_ne_nil (Nat.toDigits_ne_nil (n := y) (b := 10))
      have hc : c.isDigit = true :=
        Nat.isDigit_of_mem_toDigits (by decide) (by decide) (hcs ▸ List.mem_cons_self)
      rw [hx, hsign, hdigits, hcs] at hlist
      have hhead : '-' = c := (List.cons.inj hlist).1
      rw [← hhead] at hc
      cases hc
  have hparse := parse_format d.year_ge d.year_le
  have hparse' := parse_format (x := x) (by rw [hyear]; exact d.year_ge)
    (by rw [hyear]; exact d.year_le)
  rw [h, UtcDay.text, hparse, Option.some.injEq] at hparse'
  unfold msPerDay at hparse'
  omega

theorem utcDaySubtract_text (d : UtcDay) (n : Nat) :
    utcDaySubtract d.text n = formatUtcDay ((d.number - n) * msPerDay) := by
  have hms : d.number * msPerDay - n * 24 * 60 * 60 * 1000 = (d.number - n) * msPerDay := by
    unfold msPerDay
    omega
  simp only [utcDaySubtract, UtcDay.text, parse_format d.year_ge d.year_le, hms]

/-! ## The walk and the scan -/

variable {days : List UtcDay}

def numbers (days : List UtcDay) : List Int := days.map (·.number)

theorem format_mem_iff {x : Int} :
    formatUtcDay (x * msPerDay) ∈ days.map (·.text) ↔ x ∈ numbers days := by
  constructor
  · intro h
    obtain ⟨d, hd, htext⟩ := List.mem_map.mp h
    rw [formatUtcDay_eq_text_iff.mp htext.symm]
    exact List.mem_map_of_mem hd
  · intro h
    obtain ⟨d, hd, rfl⟩ := List.mem_map.mp h
    exact List.mem_map_of_mem hd

/-- **The loop ends**, as soon as it may take more rounds than the streak is long, with the streak
the numbers have. -/
theorem walkBack_eq {fuel : Nat} {x : Int} (current : Nat)
    (h : computeCurrentStreak (numbers days) x < fuel) :
    walkBack (days.map (·.text)) fuel current (formatUtcDay (x * msPerDay)) =
      some (current + computeCurrentStreak (numbers days) x) := by
  induction fuel generalizing x current with
  | zero => omega
  | succ fuel ih =>
    rw [walkBack]
    by_cases hx : x ∈ numbers days
    · rw [if_pos (format_mem_iff.mpr hx)]
      rw [computeCurrentStreak_of_mem hx] at h ⊢
      obtain ⟨d, -, rfl⟩ := List.mem_map.mp hx
      have hprev : utcDaySubtract (formatUtcDay (d.number * msPerDay)) 1 =
          formatUtcDay ((d.number - 1) * msPerDay) := utcDaySubtract_text d 1
      rw [hprev, ih (current + 1) (by omega)]
      congr 1
      omega
    · rw [if_neg (fun hmem => hx (format_mem_iff.mp hmem)), computeCurrentStreak_of_notMem hx,
        Nat.add_zero]

def toText (s : Streak.LongestLoop) : LongestLoop :=
  ⟨s.longest, s.prev.map fun x => formatUtcDay (x * msPerDay), s.run⟩

theorem next_text {s : Streak.LongestLoop} {d : UtcDay}
    (hprev : ∀ x ∈ s.prev, ∃ p : UtcDay, p.number = x) :
    (toText s).next d.text = toText (s.next d.number) := by
  obtain ⟨longest, prev, run⟩ := s
  cases prev with
  | none => rfl
  | some x =>
    obtain ⟨p, rfl⟩ := hprev x rfl
    have hiff : d.text = utcDaySubtract (formatUtcDay (p.number * msPerDay)) 1 ↔
        d.number = Streak.utcDaySubtract p.number 1 := by
      have hsub : utcDaySubtract (formatUtcDay (p.number * msPerDay)) 1 =
          formatUtcDay ((p.number - 1) * msPerDay) := utcDaySubtract_text p 1
      rw [hsub, eq_comm, formatUtcDay_eq_text_iff, eq_comm]
      rfl
    simp only [LongestLoop.next, Streak.LongestLoop.next, toText, Option.map_some, hiff]
    rfl

theorem computeLongestStreak_text (days : List UtcDay) :
    computeLongestStreak (days.map (·.text)) = Streak.computeLongestStreak (numbers days) := by
  have hrun : ∀ s : Streak.LongestLoop, (∀ x ∈ s.prev, ∃ p : UtcDay, p.number = x) →
      (days.map (·.text)).foldl LongestLoop.next (toText s) =
        toText ((numbers days).foldl Streak.LongestLoop.next s) := by
    induction days with
    | nil => exact fun s _ => rfl
    | cons d days ih =>
      intro s hprev
      rw [numbers, List.map_cons, List.map_cons, List.foldl_cons, List.foldl_cons,
        next_text hprev]
      refine ih (s.next d.number) ?_
      intro x hx
      exact ⟨d, Option.some.inj hx⟩
  have h := hrun ⟨0, none, 0⟩ fun x hx => by cases hx
  exact congrArg LongestLoop.longest h

/-! ## What they compute -/

/-- The numbers of days in a row, all in the list, that end at `x`. -/
def runsTo (days : List UtcDay) (x : Int) : Set Nat :=
  {k | ∀ i : Nat, i < k → x - i ∈ numbers days}

theorem isGreatest_current (x : Int) :
    IsGreatest (runsTo days x) (computeCurrentStreak (numbers days) x) := by
  obtain ⟨hin, hout⟩ := computeCurrentStreak_eq_iff.mp
    (rfl : computeCurrentStreak (numbers days) x = computeCurrentStreak (numbers days) x)
  refine ⟨hin, fun k hk => ?_⟩
  by_contra hlt
  exact hout (hk _ (Nat.not_le.mp hlt))

theorem isGreatest_longest (h : days.Pairwise fun a b => b.number < a.number) :
    IsGreatest {k | ∃ x, k ∈ runsTo days x} (Streak.computeLongestStreak (numbers days)) := by
  induction days with
  | nil =>
    refine ⟨⟨0, fun i hi => absurd hi (Nat.not_lt_zero i)⟩, ?_⟩
    rintro k ⟨x, hk⟩
    by_contra hlt
    exact absurd (hk 0 (Nat.not_le.mp hlt)) List.not_mem_nil
  | cons d days ih =>
    obtain ⟨hbelow, hrest⟩ := List.pairwise_cons.mp h
    obtain ⟨⟨x, hx⟩, hmax⟩ := ih hrest
    have hnumbers : numbers (d :: days) = d.number :: numbers days := rfl
    have hdesc : (numbers (d :: days)).Pairwise (· > ·) := List.pairwise_map.mpr h
    rw [hnumbers] at hdesc ⊢
    rw [computeLongestStreak_cons hdesc]
    have hfirst := @isGreatest_current days (d.number - 1)
    constructor
    · rcases Nat.le_total (computeCurrentStreak (numbers days) (d.number - 1) + 1)
        (Streak.computeLongestStreak (numbers days)) with hle | hle
      · rw [Nat.max_eq_right hle]
        exact ⟨x, fun i hi => List.mem_cons_of_mem _ (hx i hi)⟩
      · rw [Nat.max_eq_left hle]
        refine ⟨d.number, fun i hi => ?_⟩
        cases i with
        | zero => exact List.mem_cons.mpr (.inl (Int.sub_zero _))
        | succ i =>
          refine List.mem_cons_of_mem _ ?_
          have hmem := hfirst.1 i (by omega)
          rwa [show d.number - 1 - (i : Int) = d.number - ((i + 1 : Nat) : Int) by omega] at hmem
    · rintro k ⟨y, hk⟩
      have hcases : ∀ i < k, y - i = d.number ∨ y - i ∈ numbers days :=
        fun i hi => List.mem_cons.mp (hk i hi)
      have hlt : ∀ z ∈ numbers days, z < d.number := by
        intro z hz
        obtain ⟨e, he, rfl⟩ := List.mem_map.mp hz
        exact hbelow e he
      by_cases hy : y = d.number
      · -- the run ends at the first day, and the rest of it in the rest of the list
        have hprefix : k - 1 ∈ runsTo days (d.number - 1) := by
          intro i hi
          rcases hcases (i + 1) (by omega) with heq | hmem
          · omega
          · rwa [show d.number - 1 - (i : Int) = y - ((i + 1 : Nat) : Int) by omega]
        have hle := hfirst.2 hprefix
        omega
      · have hall : k ∈ runsTo days y := by
          intro i hi
          rcases hcases i hi with heq | hmem
          · rcases hcases 0 (by omega) with heq0 | hmem0
            · omega
            · have := hlt _ hmem0
              omega
          · exact hmem
        exact Nat.le_trans (hmax ⟨y, hall⟩) (Nat.le_max_right ..)

/-- The numbers are the longest and the current run of days. -/
structure StreaksSpec (days : List UtcDay) (today : UtcDay) : Prop where
  longest : IsGreatest {k | ∃ x, k ∈ runsTo days x} (computeLongestStreak (days.map (·.text)))
  current : ∃ k, IsGreatest (runsTo days today.number) k ∧
    (∀ fuel, days.length < fuel → walkBack (days.map (·.text)) fuel 0 today.text = some k) ∧
    k ≤ computeLongestStreak (days.map (·.text))

/-- **Both algorithms meet their specification**, for every descending list of days and every
today. -/
theorem streaks_spec (h : days.Pairwise fun a b => b.number < a.number) (today : UtcDay) :
    StreaksSpec days today := by
  have hlongest := isGreatest_longest h
  rw [← computeLongestStreak_text] at hlongest
  have hcurrent := @isGreatest_current days today.number
  refine ⟨hlongest, _, hcurrent, fun fuel hfuel => ?_, hlongest.2 ⟨_, hcurrent.1⟩⟩
  have hbound : computeCurrentStreak (numbers days) today.number ≤ days.length := by
    have hle := length_of_consecutive hcurrent.1
    rwa [numbers, List.length_map] at hle
  have hwalk := walkBack_eq (x := today.number) 0 (Nat.lt_of_le_of_lt hbound hfuel)
  rwa [Nat.zero_add] at hwalk

/-- The first of March of a leap year, the day before it, and the 27th: two days in a row. -/
def leapDays : List UtcDay :=
  [⟨19783, by decide +kernel, by decide +kernel⟩, ⟨19782, by decide +kernel, by decide +kernel⟩,
    ⟨19780, by decide +kernel, by decide +kernel⟩]

theorem streaks_over_leap_day :
    StreaksSpec leapDays ⟨19783, by decide +kernel, by decide +kernel⟩ :=
  streaks_spec (by simp [leapDays]) _

end QuizBackend.Streak.DayText
