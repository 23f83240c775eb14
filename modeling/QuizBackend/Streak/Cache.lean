import QuizBackend.Lib.Calendar
import QuizBackend.Lib.Uuid
import Mathlib.Data.List.Sort
import Mathlib.Data.List.Dedup

/-!
# The streak cache and its backfill

Three columns of `users` — `current_streak`, `longest_streak`, `last_streak_day` — cache what
the completed attempts of the user say. Two programs write them:

* the **hot path**, one `UPDATE` at the end of `completeAttemptAndSideEffects`
  (`attempt.repository.ts`), which looks at the old columns and at the day of the completion;
* the **backfill** (`scripts/backfill/user-streak.ts`), which reads the distinct completion days
  of a user and recomputes the columns with the algorithms of `user-streak.algorithm.ts`.

A UTC day is an integer, the number of days since the epoch. The source writes it as
`YYYY-MM-DD`, and on that form `utcDaySubtract` is subtraction and SQL's `<`, `=` and
`+ INTERVAL '1 day'` are those of the integers.
-/

namespace QuizBackend.Streak

open Lib

structure StreakTrio where
  currentStreak : Nat
  longestStreak : Nat
  lastStreakDay : Option Int
  deriving DecidableEq

def StreakTrio.initial : StreakTrio := ⟨0, 0, none⟩

structure UserRow where
  userId : Uuid
  streak : StreakTrio
  deletedAt : Option Int

/-! ## The hot path -/

/-- The `CASE` of the `UPDATE`. A comparison with `NULL` is not true, so a row without
`last_streak_day` takes the `ELSE`. -/
def newCurrent (u : StreakTrio) (day : Int) : Nat :=
  match u.lastStreakDay with
  | none => 1
  | some last =>
    if day < last then u.currentStreak
    else if day = last then u.currentStreak
    else if day = last + 1 then u.currentStreak + 1
    else 1

/-- `GREATEST(u.last_streak_day, day)`, which ignores a `NULL`. -/
def greatestDay : Option Int → Int → Int
  | none, day => day
  | some last, day => max last day

def streakUpdate (u : StreakTrio) (day : Int) : StreakTrio :=
  { currentStreak := newCurrent u day
    longestStreak := max u.longestStreak (newCurrent u day)
    lastStreakDay := some (greatestDay u.lastStreakDay day) }

/-- `UPDATE users … WHERE … deleted_at IS NULL AND (… IS DISTINCT FROM …)`, for a completion at
the instant `finishedAt`. -/
def updateStreak (row : UserRow) (finishedAt : Int) : UserRow :=
  let src := streakUpdate row.streak (utcDay finishedAt)
  if row.deletedAt = none ∧ row.streak ≠ src then { row with streak := src } else row

/-! ## The backfill -/

def utcDaySubtract (day : Int) (n : Nat) : Int := day - n

/-- The `while` loop of `computeCurrentStreak`. `fuel` bounds the number of iterations. -/
def walkBack (days : List Int) : Nat → Nat → Int → Nat
  | 0, current, _ => current
  | fuel + 1, current, cursor =>
    if cursor ∈ days then walkBack days fuel (current + 1) (utcDaySubtract cursor 1) else current

/-- `computeCurrentStreak`. The walk visits each day of `days` at most once, so their number is
bound enough (`computeCurrentStreak_eq_iff`). -/
def computeCurrentStreak (days : List Int) (today : Int) : Nat :=
  walkBack days days.length 0 today

structure LongestLoop where
  longest : Nat
  prev : Option Int
  run : Nat

def LongestLoop.next (s : LongestLoop) (d : Int) : LongestLoop :=
  let run :=
    match s.prev with
    | none => s.run + 1
    | some prev => if d = utcDaySubtract prev 1 then s.run + 1 else 1
  { longest := if run > s.longest then run else s.longest, prev := some d, run }

/-- `computeLongestStreak`, over days in descending order. -/
def computeLongestStreak (days : List Int) : Nat :=
  (days.foldl LongestLoop.next ⟨0, none, 0⟩).longest

def computeBackfillTrio (days : List Int) (today : Int) : StreakTrio :=
  let currentStreak := computeCurrentStreak days today
  { currentStreak
    longestStreak := computeLongestStreak days
    lastStreakDay := if currentStreak > 0 then some today else none }

/-- `fetchDistinctCompletionDays`: `SELECT DISTINCT … ORDER BY day DESC` over the `finished_at`
of the user's completed attempts. -/
def fetchDistinctCompletionDays (finishedAt : List Int) : List Int :=
  ((finishedAt.map utcDay).dedup).insertionSort (· ≥ ·)

/-- `writeStreakCache`, with the "anything changed" answer of its `RETURNING`. -/
def writeStreakCache (row : UserRow) (trio : StreakTrio) : UserRow × Bool :=
  if row.deletedAt = none ∧ row.streak ≠ trio then ({ row with streak := trio }, true)
  else (row, false)

/-- `backfillOneUser`: the row it leaves, with the `updated` and `maxStreak` of its result. -/
def backfillOneUser (row : UserRow) (finishedAt : List Int) (today : Int) (dryRun : Bool) :
    UserRow × Bool × Nat :=
  let trio := computeBackfillTrio (fetchDistinctCompletionDays finishedAt) today
  if dryRun then (row, false, trio.longestStreak)
  else
    let (row', updated) := writeStreakCache row trio
    (row', updated, trio.longestStreak)

/-! ## What the statements do to a row -/

theorem updateStreak_streak {row : UserRow} (h : row.deletedAt = none) (finishedAt : Int) :
    (updateStreak row finishedAt).streak = streakUpdate row.streak (utcDay finishedAt) := by
  unfold updateStreak
  by_cases he : row.streak = streakUpdate row.streak (utcDay finishedAt)
  · rw [if_neg fun hc => hc.2 he]
    exact he
  · rw [if_pos ⟨h, he⟩]

theorem updateStreak_deletedAt (row : UserRow) (finishedAt : Int) :
    (updateStreak row finishedAt).deletedAt = row.deletedAt := by
  simp only [updateStreak]
  split <;> rfl

theorem foldl_updateStreak {row : UserRow} (h : row.deletedAt = none) (finishedAt : List Int) :
    (finishedAt.foldl updateStreak row).streak
        = (finishedAt.map utcDay).foldl streakUpdate row.streak ∧
      (finishedAt.foldl updateStreak row).deletedAt = none := by
  induction finishedAt generalizing row with
  | nil => exact ⟨rfl, h⟩
  | cons t ts ih =>
    have hd : (updateStreak row t).deletedAt = none := by rw [updateStreak_deletedAt, h]
    rw [List.foldl_cons, List.map_cons, List.foldl_cons, ← updateStreak_streak h]
    exact ih hd

theorem writeStreakCache_row {row : UserRow} (h : row.deletedAt = none) (trio : StreakTrio) :
    (writeStreakCache row trio).1.streak = trio ∧
      (writeStreakCache row trio).1.deletedAt = none := by
  unfold writeStreakCache
  by_cases he : row.streak = trio
  · rw [if_neg fun hc => hc.2 he]
    exact ⟨he, h⟩
  · rw [if_pos ⟨h, he⟩]
    exact ⟨rfl, h⟩

end QuizBackend.Streak
