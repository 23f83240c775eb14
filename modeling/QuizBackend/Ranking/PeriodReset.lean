import QuizBackend.Ranking.Recalculation

/-!
# Period resets (`period-reset.service.ts`, `period-reset.repository.ts`)

Two mechanisms roll the period counters of `user_ranking` over. Every XP update carries a `CASE` on
the reset clocks of its row (`setXp`), and a job in the first hour of the new period snapshots the
counters into `rank_history` and zeroes those that are positive (`resetPeriod`). Neither knows of
the other:

* the event that finds its period over writes `0` and moves the clock, so the finished value is
  gone before the snapshot is taken, and the event itself is not counted;
* the job zeroes whatever is positive, so XP that was ingested between the boundary and the job is
  taken for XP of the finished period;
* the job stamps the rows it zeroes and no others, so the first event of a user whose counter was
  `0` still runs into the `CASE`.

`resetPeriod` is two statements, an `INSERT … SELECT` and an `UPDATE`, and the jobs that call it open
no transaction around them: XP may be ingested in between. (Of the other writers only these
matter there: a reset of another period has other columns, and a rank or an account written between
the two is as good as written after them.) `PeriodResetService` looks at the hour and the day and
does nothing at any other time.

The counters of all users are the sums over the periods of the last step, and every reset finds the
finished values in `rank_history`, in exactly those runs in which, after a boundary, the period's
own reset is the first thing to happen, and meets no XP (`counters_exact_iff`).
-/

namespace QuizBackend.Ranking.PeriodReset

open Lib Table
open Ranking.Recalculation

/-! ## The UTC clock -/

def getUTCHours (t : Int) : Int := t % msPerDay / 3600000

/-- The day of the week, from Sunday; 1970-01-01 was a Thursday. -/
def getUTCDay (t : Int) : Int := (utcDay t + 4) % 7

def getUTCDate (t : Int) : Int := dayOfMonth (utcDay t) + 1

/-- The first day of the period an instant falls in; all time is one period. -/
def periodStart : RankingPeriod → Int → Int
  | .daily, t => utcDay t
  | .weekly, t => weekStart (utcDay t)
  | .monthly, t => monthStart (utcDay t)
  | .allTime, _ => 0

variable {t now : Int} {p : RankingPeriod} {e : XpEvent} {between : List XpEvent}

theorem periodStart_mono (p : RankingPeriod) {s : Int} (h : s ≤ t) :
    periodStart p s ≤ periodStart p t := by
  cases p with
  | daily => exact utcDay_mono h
  | weekly => exact weekStart_mono (utcDay_mono h)
  | monthly => exact monthStart_mono (utcDay_mono h)
  | allTime => exact Int.le_refl _

theorem periodStart_eq_iff (p : RankingPeriod) {a b c : Int} (hab : a ≤ b) (hbc : b ≤ c) :
    periodStart p a = periodStart p c ↔
      periodStart p b = periodStart p c ∧ periodStart p a = periodStart p b := by
  have h₁ := periodStart_mono p hab
  have h₂ := periodStart_mono p hbc
  omega

theorem periodStart_of_utcDay {s : Int} (h : utcDay s = utcDay t) :
    periodStart p s = periodStart p t := by
  cases p <;> simp only [periodStart, h]

/-! ## Rows -/

structure RankHistoryRow where
  userId : String
  period : RankingPeriod
  snapshotDate : Int
  rank : Int
  xp : Int
  recordedAt : Int

def RankHistoryRow.snapshot (r : RankHistoryRow) : String × RankingPeriod × Int :=
  (r.userId, r.period, r.snapshotDate)

abbrev RankHistory := Table (String × RankingPeriod × Int) RankHistoryRow RankHistoryRow.snapshot

/-- The last value of a counter in a finished period, and the first instant of the period that
follows. -/
structure Finished where
  userId : String
  period : RankingPeriod
  xp : Int
  followedBy : Int

/-- The tables, the rank columns of `user_ranking`, and three things nobody stores: the moment of the
last step, the events processed so far, and the counters of the periods that are over. -/
structure State where
  users : String → Option UserInfo
  ranking : UserRanking
  ranks : String → RankingPeriod → Option Int
  history : RankHistory
  clock : Int
  events : List XpEvent
  finished : List Finished

open State

def State.initial (clock : Int) : State :=
  { users := fun _ => none, ranking := empty _, ranks := fun _ _ => none
    history := empty _, clock, events := [], finished := [] }

/-- The value of a counter; a user without a row has no XP. -/
def counter (t : UserRanking) (userId : String) (period : RankingPeriod) : Int :=
  ((t.find? userId).map (getXp · period)).getD 0

/-! ## Time -/

def State.TurnedOver (s : State) (period : RankingPeriod) (now : Int) : Prop :=
  periodStart period s.clock ≠ periodStart period now

instance (s : State) (period : RankingPeriod) (now : Int) : Decidable (s.TurnedOver period now) :=
  inferInstanceAs (Decidable (_ ≠ _))

section

variable (s : State)

def State.undeleted (userId : String) : Bool :=
  match s.users userId with
  | some info => info.deletedAt = none
  | none => false

def State.lastValues (period : RankingPeriod) (followedBy : Int) : List Finished :=
  s.ranking.rows.filterMap fun row =>
    if 0 < getXp row period ∧ (s.ranks row.userId period).isSome ∧ s.undeleted row.userId then
      some { userId := row.userId, period, xp := getXp row period, followedBy }
    else none

/-- What time does: the periods that are over by `now` leave their last values behind. -/
def State.tick (now : Int) : State :=
  { s with
    clock := now
    finished := s.finished ++ allPeriods.flatMap fun period =>
      if s.TurnedOver period now then s.lastValues period (periodStart period now * msPerDay)
      else [] }

/-! ## XP ingestion -/

/-- An XP event: `_updateXpCore` in its transaction. Amounts are positive. -/
def applyXp (e : XpEvent) : Option State :=
  if s.clock ≤ e.now ∧ 0 < e.amount then
    (xpStep s.ranking e).map fun t =>
      { s.tick e.now with ranking := t, events := s.events ++ [e] }
  else none

/-! ## `resetPeriod` -/

/-- The rows of the `INSERT … SELECT`; `getDayStart(resetAt)` is their date. -/
def snapshotRows (period : RankingPeriod) (resetAt : Int) : List RankHistoryRow :=
  s.ranking.rows.filterMap fun row =>
    match s.users row.userId, s.ranks row.userId period with
    | some info, some rank =>
      if 0 < getXp row period ∧ info.deletedAt = none then
        some { userId := row.userId, period, snapshotDate := dateTruncDay resetAt, rank
               xp := getXp row period, recordedAt := resetAt }
      else none
    | _, _ => none

end

section

variable (period : RankingPeriod)

/-- The `SET` list of `getResetFields`, on the columns of `UserRankingRow`. -/
def resetFields (resetAt : Int) (row : UserRankingRow) : UserRankingRow :=
  match period with
  | .weekly => { row with weeklyXp := 0, lastWeeklyResetAt := some resetAt, updatedAt := resetAt }
  | .monthly => { row with monthlyXp := 0, lastMonthlyResetAt := some resetAt, updatedAt := resetAt }
  | .daily => { row with dailyXp := 0, lastDailyResetAt := some resetAt, updatedAt := resetAt }
  | .allTime => { row with allTimeXp := 0, updatedAt := resetAt }

def resetRow (resetAt : Int) (row : UserRankingRow) : UserRankingRow :=
  if 0 < getXp row period then resetFields period resetAt row else row

theorem resetRow_userId (resetAt : Int) (row : UserRankingRow) :
    (resetRow period resetAt row).userId = row.userId := by
  unfold resetRow
  split
  · cases period <;> rfl
  · rfl

end

section

variable (s : State)

section

variable (period : RankingPeriod)

section

variable (resetAt : Int)

def archive : State :=
  { s.tick resetAt with history := s.history.insertMissing (snapshotRows s period resetAt) }

/-- The second statement of a reset; it sets the rank to `NULL` with the counter to `0`. -/
def clear : State :=
  { s with
    ranking := s.ranking.update (resetRow period resetAt) (resetRow_userId period resetAt)
    ranks := fun userId q =>
      if q = period ∧ 0 < counter s.ranking userId period then none else s.ranks userId q }

/-- `resetPeriod`, with the XP that is ingested between its two statements. -/
def resetPeriod (between : List XpEvent) :
    Option State :=
  if period = .allTime then some s
  else (exec applyXp (archive s period resetAt) between).map (clear · period resetAt)

def executeReset (between : List XpEvent) :
    Option State := resetPeriod s period resetAt between

end

end

/-- `performDailyReset`; none when it skips. -/
def performDailyReset (now : Int) (between : List XpEvent) : Option State :=
  if getUTCHours now ≠ 0 then none else executeReset s .daily now between

/-- `performWeeklyReset`; none when it skips. -/
def performWeeklyReset (now : Int) (between : List XpEvent) : Option State :=
  if getUTCDay now ≠ 1 then none
  else if getUTCHours now ≠ 0 then none
  else executeReset s .weekly now between

/-- `performMonthlyReset`; none when it skips. -/
def performMonthlyReset (now : Int) (between : List XpEvent) : Option State :=
  if getUTCDate now ≠ 1 then none
  else if getUTCHours now ≠ 0 then none
  else executeReset s .monthly now between

end

/-! ## Steps -/

inductive Action
  | xp (event : XpEvent)
  | reset (period : RankingPeriod) (now : Int) (between : List XpEvent)
  | account (userId : String) (info : UserInfo)
  | rank (userId : String) (period : RankingPeriod) (rank : Int)

/-- The reset of a period at `now`; there is none of all time. -/
def performReset (s : State) (period : RankingPeriod) (now : Int) (between : List XpEvent) :
    Option State :=
  match period with
  | .daily => performDailyReset s now between
  | .weekly => performWeeklyReset s now between
  | .monthly => performMonthlyReset s now between
  | .allTime => none

def step (s : State) : Action → Option State
  | .xp e => applyXp s e
  | .reset period now between =>
    if s.clock ≤ now then performReset s period now between else none
  | .account userId info =>
    some { s with users := fun u => if u = userId then some info else s.users u }
  | .rank userId period rank =>
    some { s with
      ranks := fun u q => if u = userId ∧ q = period then some rank else s.ranks u q }

/-! ## What the statements do to the counters -/

def caseFires (row : UserRankingRow) (period : RankingPeriod) (now : Int) : Bool :=
  match period with
  | .weekly => before row.lastWeeklyResetAt (dateTruncWeek now)
      || before row.lastMonthlyResetAt (dateTruncMonth now)
  | .monthly => before row.lastMonthlyResetAt (dateTruncMonth now)
  | .daily => before row.lastDailyResetAt (dateTruncDay now)
  | .allTime => false

theorem getXp_setXp (row : UserRankingRow) (amount now : Int) (p : RankingPeriod) :
    getXp (setXp row amount now) p =
      if caseFires row p now then 0 else getXp row p + amount := by
  cases p <;> rfl

theorem getXp_rowBefore (t : UserRanking) (e : XpEvent) (p : RankingPeriod) :
    getXp (rowBefore t e) p = counter t e.userId p := by
  unfold rowBefore counter
  cases t.find? e.userId with
  | none => cases p <;> rfl
  | some row => rfl

/-- **An event's effect on the counters**: those of its user, each by its `CASE`. -/
theorem counter_xpStep {t t' : UserRanking} (h : xpStep t e = some t') (u : String)
    (p : RankingPeriod) :
    counter t' u p =
      if u = e.userId then
        if caseFires (rowBefore t e) p e.now then 0 else counter t u p + e.amount
      else counter t u p := by
  have hspec := xpStep_spec t e
  split at hspec
  · obtain ⟨t₁, ht₁, hself, hother⟩ := hspec
    rw [h, Option.some.injEq] at ht₁
    subst ht₁
    by_cases hu : u = e.userId
    · rw [if_pos hu, hu, counter, hself, ← getXp_rowBefore, ← getXp_setXp]
      rfl
    · rw [if_neg hu, counter, hother u hu, counter]
  · rw [h] at hspec
    cases hspec

theorem getXp_resetRow (p q : RankingPeriod) (resetAt : Int) (row : UserRankingRow) :
    getXp (resetRow p resetAt row) q =
      if q = p ∧ 0 < getXp row p then 0 else getXp row q := by
  unfold resetRow
  by_cases hpos : 0 < getXp row p
  · rw [if_pos hpos]
    by_cases hq : q = p
    · subst hq
      rw [if_pos ⟨rfl, hpos⟩]
      cases q <;> rfl
    · rw [if_neg fun h => hq h.1]
      cases p <;> cases q <;> first | rfl | exact absurd rfl hq
  · rw [if_neg hpos, if_neg fun h => hpos h.2]

theorem counter_clear (s : State) (p q : RankingPeriod) (resetAt : Int) (u : String) :
    counter (clear s p resetAt).ranking u q =
      if q = p ∧ 0 < counter s.ranking u p then 0 else counter s.ranking u q := by
  have hfind : (clear s p resetAt).ranking.find? u
      = (s.ranking.find? u).map (resetRow p resetAt) := by
    simp only [clear, find?_update]
  unfold counter
  rw [hfind]
  cases hrow : s.ranking.find? u with
  | none => simp
  | some row => simpa using getXp_resetRow p q resetAt row

/-! ## What a step can do -/

variable {s s' : State} {a : Action} {f : Finished}

theorem applyXp_cases (h : applyXp s e = some s') :
    s.clock ≤ e.now ∧ 0 < e.amount ∧ ∃ t, xpStep s.ranking e = some t ∧
      s' = { s.tick e.now with ranking := t, events := s.events ++ [e] } := by
  unfold applyXp at h
  split at h
  · rename_i hen
    obtain ⟨t, ht, rfl⟩ := Option.map_eq_some_iff.mp h
    exact ⟨hen.1, hen.2, t, ht, rfl⟩
  · cases h

theorem performReset_cases (h : performReset s p now between = some s') :
    periodStart p now = utcDay now ∧ p ≠ .allTime ∧
      ∃ m, exec applyXp (archive s p now) between = some m ∧ s' = clear m p now := by
  have hreset : ∀ q, q ≠ .allTime → resetPeriod s q now between = some s' →
      ∃ m, exec applyXp (archive s q now) between = some m ∧ s' = clear m q now := by
    intro q hq hrun
    rw [resetPeriod, if_neg hq] at hrun
    obtain ⟨m, hm, rfl⟩ := Option.map_eq_some_iff.mp hrun
    exact ⟨m, hm, rfl⟩
  cases p with
  | daily =>
    simp only [performReset, performDailyReset, executeReset] at h
    split at h
    · cases h
    · exact ⟨rfl, by decide, hreset .daily (by decide) h⟩
  | weekly =>
    simp only [performReset, performWeeklyReset, executeReset] at h
    split at h
    · cases h
    · rename_i hday
      split at h
      · cases h
      · refine ⟨?_, by decide, hreset .weekly (by decide) h⟩
        show weekStart (utcDay now) = utcDay now
        unfold getUTCDay at hday
        unfold weekStart
        omega
  | monthly =>
    simp only [performReset, performMonthlyReset, executeReset] at h
    split at h
    · cases h
    · rename_i hdate
      split at h
      · cases h
      · refine ⟨?_, by decide, hreset .monthly (by decide) h⟩
        show monthStart (utcDay now) = utcDay now
        unfold getUTCDate at hdate
        unfold monthStart
        omega
  | allTime => cases h

theorem reset_cases (h : step s (.reset p now between) = some s') :
    s.clock ≤ now ∧ periodStart p now = utcDay now ∧ p ≠ .allTime ∧
      ∃ m, exec applyXp (archive s p now) between = some m ∧ s' = clear m p now := by
  simp only [step] at h
  split at h
  · exact ⟨‹_›, performReset_cases h⟩
  · cases h

/-! ## Time goes forward -/

structure Timely (s : State) : Prop where
  event_le : ∀ e ∈ s.events, e.now ≤ s.clock
  positive : ∀ e ∈ s.events, 0 < e.amount
  history_le : ∀ r ∈ s.history.rows, r.snapshotDate ≤ dateTruncDay s.clock

theorem Timely.initial (clock : Int) : Timely (.initial clock) :=
  ⟨fun _ h => absurd h List.not_mem_nil, fun _ h => absurd h List.not_mem_nil,
    fun _ h => absurd h List.not_mem_nil⟩

theorem dateTruncDay_mono {s : Int} (h : s ≤ t) : dateTruncDay s ≤ dateTruncDay t := by
  have hday := utcDay_mono h
  unfold dateTruncDay msPerDay
  omega

theorem Timely.tick (h : Timely s) (hle : s.clock ≤ now) : Timely (s.tick now) := by
  refine ⟨fun e he => ?_, h.positive, fun r hr => ?_⟩
  · exact Int.le_trans (h.event_le e he) hle
  · exact Int.le_trans (h.history_le r hr) (dateTruncDay_mono hle)

theorem Timely.applyXp (h : Timely s) (hstep : applyXp s e = some s') : Timely s' := by
  obtain ⟨hle, hamount, t, -, rfl⟩ := applyXp_cases hstep
  have htick := h.tick hle
  refine ⟨fun a ha => ?_, fun a ha => ?_, htick.history_le⟩
  · rcases List.mem_append.mp ha with ha | ha
    · exact htick.event_le a ha
    · rw [List.mem_singleton.mp ha]
      exact Int.le_refl _
  · rcases List.mem_append.mp ha with ha | ha
    · exact h.positive a ha
    · rw [List.mem_singleton.mp ha]
      exact hamount

theorem mem_snapshotRows {resetAt : Int} {r : RankHistoryRow} :
    r ∈ snapshotRows s p resetAt ↔
      ∃ row ∈ s.ranking.rows, ∃ rank, s.ranks row.userId p = some rank ∧
        s.undeleted row.userId = true ∧ 0 < getXp row p ∧
        r = { userId := row.userId, period := p, snapshotDate := dateTruncDay resetAt, rank
              xp := getXp row p, recordedAt := resetAt } := by
  unfold snapshotRows undeleted
  rw [List.mem_filterMap]
  refine exists_congr fun row => and_congr_right fun _ => ?_
  cases hinfo : s.users row.userId with
  | none => simp
  | some info =>
    cases hrank : s.ranks row.userId p with
    | none => simp
    | some rank =>
      by_cases hsel : 0 < getXp row p ∧ info.deletedAt = none
      · simp [hsel, eq_comm]
      · simp only [hsel, if_false, reduceCtorEq, decide_eq_true_eq, false_iff]
        rintro ⟨_, -, hdel, hpos, -⟩
        exact hsel ⟨hpos, hdel⟩

theorem Timely.archive (h : Timely s) (hle : s.clock ≤ now) : Timely (archive s p now) := by
  have htick := h.tick hle
  refine ⟨htick.event_le, htick.positive, ?_⟩
  intro r hr
  have hfind := find?_of_mem hr
  simp only [PeriodReset.archive, find?_insertMissing, Option.or_eq_some_iff] at hfind
  rcases hfind with hold | ⟨-, hnew⟩
  · exact htick.history_le r (mem_of_find? hold)
  · obtain ⟨row, -, rank, -, -, -, rfl⟩ := mem_snapshotRows.mp (List.mem_of_find?_eq_some hnew)
    exact Int.le_refl _

theorem Timely.step (h : Timely s) (hstep : step s a = some s') : Timely s' := by
  cases a with
  | xp e => exact h.applyXp hstep
  | reset p now between =>
    obtain ⟨hle, -, -, m, hm, rfl⟩ := reset_cases hstep
    have hmid : Timely m := exec_invariant (fun _ _ _ hs hx => hs.applyXp hx) hm (h.archive hle)
    exact ⟨hmid.event_le, hmid.positive, hmid.history_le⟩
  | account userId info =>
    cases hstep
    exact ⟨h.event_le, h.positive, h.history_le⟩
  | rank userId p rank =>
    cases hstep
    exact ⟨h.event_le, h.positive, h.history_le⟩

/-! ## The counters -/

/-- The XP of a user that was processed in the period of `now`. -/
def State.processed (s : State) (userId : String) (period : RankingPeriod) (now : Int) : Int :=
  xpSum (fun e => e.userId = userId ∧ periodStart period e.now = periodStart period now) s.events

/-- Every counter is what was processed in its period. -/
def Exact (s : State) : Prop :=
  ∀ userId period, counter s.ranking userId period = s.processed userId period s.clock

def Idle (s : State) (period : RankingPeriod) : Prop :=
  ∀ row ∈ s.ranking.rows, getXp row period = 0

instance (s : State) (period : RankingPeriod) : Decidable (Idle s period) :=
  inferInstanceAs (Decidable (∀ row ∈ _, _))

theorem idle_iff : Idle s p ↔ ∀ u, counter s.ranking u p = 0 := by
  constructor
  · intro h u
    unfold counter
    cases hrow : s.ranking.find? u with
    | none => rfl
    | some row => exact h row (mem_of_find? hrow)
  · intro h row hrow
    have hzero := h row.userId
    rw [counter, find?_of_mem hrow] at hzero
    exact hzero

/-- **What a moment later is counted of the events so far**: the counter, or nothing once the
period is over. -/
theorem Exact.processed (h : Exact s) (ht : Timely s) (hle : s.clock ≤ now) (u : String)
    (p : RankingPeriod) :
    s.processed u p now = if s.TurnedOver p now then 0 else counter s.ranking u p := by
  have hinterval : ∀ e ∈ s.events, (periodStart p e.now = periodStart p now ↔
      ¬ s.TurnedOver p now ∧ periodStart p e.now = periodStart p s.clock) := fun e he => by
    rw [TurnedOver, not_not]
    exact periodStart_eq_iff p (ht.event_le e he) hle
  by_cases hturn : s.TurnedOver p now
  · rw [if_pos hturn, State.processed, xpSum, List.filter_eq_nil_iff.mpr]
    · rfl
    · intro e he hsel
      exact ((hinterval e he).mp (of_decide_eq_true hsel).2).1 hturn
  · rw [if_neg hturn, h u p, State.processed, State.processed]
    refine xpSum_congr fun e he => ?_
    rw [decide_eq_decide, hinterval e he]
    tauto

theorem Exact.counter_nonneg (h : Exact s) (ht : Timely s) (u : String) (p : RankingPeriod) :
    0 ≤ counter s.ranking u p := by
  rw [h u p]
  exact xpSum_nonneg ht.positive

theorem processed_snoc (s : State) (e : XpEvent) (u : String) (p : RankingPeriod) :
    xpSum (fun a => a.userId = u ∧ periodStart p a.now = periodStart p e.now) (s.events ++ [e])
      = s.processed u p e.now + if u = e.userId then e.amount else 0 := by
  rw [xpSum_snoc, processed]
  by_cases hu : u = e.userId
  · rw [if_pos hu, if_pos (by simp [hu])]
  · rw [if_neg hu, if_neg (by simpa using fun he => hu he.symm)]

/-! ## The steps that keep the counters exact -/

/-- After a boundary the period's own reset comes first and meets no XP, and no `CASE` fires. -/
def Upheld (s : State) : Action → Prop
  | .xp e =>
    (∀ p ∈ allPeriods, s.TurnedOver p e.now → Idle s p) ∧
      ∀ p ∈ allPeriods, caseFires (rowBefore s.ranking e) p e.now = false
  | .reset p now between =>
    between = [] ∧ (¬ s.TurnedOver p now → Idle s p) ∧
      ∀ q ∈ allPeriods, q ≠ p → s.TurnedOver q now → Idle s q
  | .account _ _ | .rank _ _ _ => True

instance : ∀ (s : State) (a : Action), Decidable (Upheld s a)
  | _, .xp _ => inferInstanceAs (Decidable (_ ∧ _))
  | _, .reset _ _ _ => inferInstanceAs (Decidable (_ ∧ _ ∧ _))
  | _, .account _ _ => inferInstanceAs (Decidable True)
  | _, .rank _ _ _ => inferInstanceAs (Decidable True)

theorem exact_applyXp_iff (h : Exact s) (ht : Timely s) (hstep : applyXp s e = some s') :
    Exact s' ↔ Upheld s (.xp e) := by
  obtain ⟨hle, hamount, t, hxp, rfl⟩ := applyXp_cases hstep
  -- the counter of one user in one period, and what it should be
  have hexact : ∀ u p, (counter t u p = xpSum (fun a => a.userId = u ∧
      periodStart p a.now = periodStart p e.now) (s.events ++ [e])) ↔
      (s.TurnedOver p e.now → counter s.ranking u p = 0) ∧
        (u = e.userId → caseFires (rowBefore s.ranking e) p e.now = false) := by
    intro u p
    have hnn := h.counter_nonneg ht u p
    rw [counter_xpStep hxp, processed_snoc, h.processed ht hle]
    by_cases hu : u = e.userId
    · subst hu
      rw [if_pos rfl, if_pos rfl]
      by_cases hturn : s.TurnedOver p e.now <;>
        by_cases hcase : caseFires (rowBefore s.ranking e) p e.now = true <;>
          simp [hturn, hcase] <;> omega
    · rw [if_neg hu, if_neg hu]
      by_cases hturn : s.TurnedOver p e.now <;> simp [hu, hturn]
  constructor
  · intro hafter
    refine ⟨fun p _ hturn => idle_iff.mpr fun u => ?_, fun p _ => ?_⟩
    · exact ((hexact u p).mp (hafter u p)).1 hturn
    · exact ((hexact e.userId p).mp (hafter e.userId p)).2 rfl
  · rintro ⟨hidle, hcase⟩ u p
    refine (hexact u p).mpr ⟨fun hturn => ?_, fun _ => ?_⟩
    · exact idle_iff.mp (hidle p (mem_allPeriods p) hturn) u
    · exact hcase p (mem_allPeriods p)

theorem not_exact_of_between {m : State} (ht : Timely s) (hrun : exec applyXp s between = some m)
    (hne : between ≠ []) : ¬ Exact (clear m p now) := by
  obtain ⟨before, e, rfl⟩ := (List.eq_nil_or_concat between).resolve_left hne
  rw [List.concat_eq_append] at hrun
  obtain ⟨m₀, hm₀, hlast⟩ := exec_snoc.mp hrun
  have ht₀ : Timely m₀ := exec_invariant (fun _ _ _ hs hx => hs.applyXp hx) hm₀ ht
  obtain ⟨-, hamount, t, -, rfl⟩ := applyXp_cases hlast
  intro hexact
  have hzero : counter (clear { m₀.tick e.now with ranking := t, events := m₀.events ++ [e] } p
      now).ranking e.userId p ≤ 0 := by
    rw [counter_clear]
    split
    · exact Int.le_refl 0
    · rename_i hnot
      exact Int.not_lt.mp fun hpos => hnot ⟨rfl, hpos⟩
  have hsum := (hexact e.userId p).trans (processed_snoc m₀ e e.userId p)
  have hnn : 0 ≤ m₀.processed e.userId p e.now := xpSum_nonneg ht₀.positive
  rw [if_pos rfl] at hsum
  omega

theorem exact_reset_iff (h : Exact s) (ht : Timely s)
    (hstep : step s (.reset p now between) = some s') :
    Exact s' ↔ Upheld s (.reset p now between) := by
  obtain ⟨hle, -, -, m, hrun, rfl⟩ := reset_cases hstep
  by_cases hbetween : between = []
  · subst hbetween
    cases hrun
    have hexact : ∀ u q, (counter (clear (archive s p now) p now).ranking u q
        = s.processed u q now) ↔
        if q = p then ¬ s.TurnedOver q now → counter s.ranking u q = 0
        else s.TurnedOver q now → counter s.ranking u q = 0 := by
      intro u q
      have hnn := h.counter_nonneg ht u p
      have hsame : (archive s p now).ranking = s.ranking := rfl
      rw [counter_clear, hsame, h.processed ht hle]
      by_cases hq : q = p
      · subst hq
        by_cases hturn : s.TurnedOver q now <;> simp [hturn] <;> omega
      · by_cases hturn : s.TurnedOver q now <;> simp [hq, hturn]
    constructor
    · intro hafter
      refine ⟨rfl, fun hturn => idle_iff.mpr fun u => ?_,
        fun q _ hq hturn => idle_iff.mpr fun u => ?_⟩
      · have hu := (hexact u p).mp (hafter u p)
        rw [if_pos rfl] at hu
        exact hu hturn
      · have hu := (hexact u q).mp (hafter u q)
        rw [if_neg hq] at hu
        exact hu hturn
    · rintro ⟨-, hself, hother⟩ u q
      refine (hexact u q).mpr ?_
      split
      · rename_i hq
        subst hq
        exact fun hturn => idle_iff.mp (hself hturn) u
      · exact fun hturn => idle_iff.mp (hother q (mem_allPeriods q) ‹_› hturn) u
  · refine iff_of_false (not_exact_of_between (ht.archive hle) hrun hbetween) ?_
    exact fun hc => hbetween hc.1

/-- **One step keeps the counters exact just when it is upheld.** -/
theorem exact_step_iff (h : Exact s) (ht : Timely s) (hstep : step s a = some s') :
    Upheld s a ↔ Exact s' := by
  cases a with
  | xp e => exact (exact_applyXp_iff h ht hstep).symm
  | reset p now between => exact (exact_reset_iff h ht hstep).symm
  | account userId info =>
    cases hstep
    exact iff_of_true trivial h
  | rank userId p rank =>
    cases hstep
    exact iff_of_true trivial h

/-! ## The history -/

/-- `rank_history` holds a finished value, under the day the next period begins. -/
def Recorded (s : State) (f : Finished) : Prop :=
  ∃ row ∈ s.history.rows, row.userId = f.userId ∧ row.period = f.period ∧
    row.snapshotDate = f.followedBy ∧ row.xp = f.xp

def ResetRecords (_ : State) (a : Action) (s' : State) : Prop :=
  match a with
  | .reset p _ _ => ∀ f ∈ s'.finished, f.period = p → Recorded s' f
  | _ => True

theorem mem_tick_finished :
    f ∈ (s.tick now).finished ↔ f ∈ s.finished ∨
      s.TurnedOver f.period now ∧
        f ∈ s.lastValues f.period (periodStart f.period now * msPerDay) := by
  unfold tick
  rw [List.mem_append, List.mem_flatMap]
  refine or_congr_right ⟨?_, ?_⟩
  · rintro ⟨p, -, hf⟩
    split at hf
    · rename_i hturn
      obtain rfl : f.period = p := by
        obtain ⟨row, -, hrow⟩ := List.mem_filterMap.mp hf
        split at hrow
        · cases hrow
          rfl
        · cases hrow
      exact ⟨hturn, hf⟩
    · cases hf
  · rintro ⟨hturn, hf⟩
    exact ⟨f.period, mem_allPeriods _, by rw [if_pos hturn]; exact hf⟩

theorem mem_lastValues {followedBy : Int} :
    f ∈ s.lastValues p followedBy ↔
      ∃ row ∈ s.ranking.rows, 0 < getXp row p ∧ (s.ranks row.userId p).isSome = true ∧
        s.undeleted row.userId = true ∧ f = ⟨row.userId, p, getXp row p, followedBy⟩ := by
  unfold lastValues
  rw [List.mem_filterMap]
  refine exists_congr fun row => and_congr_right fun _ => ?_
  split
  · rename_i hsel
    simp [hsel, eq_comm]
  · rename_i hsel
    simp only [reduceCtorEq, false_iff]
    rintro ⟨hpos, hrank, hund, -⟩
    exact hsel ⟨hpos, hrank, hund⟩

theorem not_mem_lastValues_of_idle (h : Idle s p) (followedBy : Int) (f : Finished) :
    f ∉ s.lastValues p followedBy := by
  intro hf
  obtain ⟨row, hrow, hpos, -⟩ := mem_lastValues.mp hf
  rw [h row hrow] at hpos
  exact absurd hpos (by decide)

theorem Recorded.of_find? (hkeep : ∀ k r, s.history.find? k = some r → s'.history.find? k = some r)
    (h : Recorded s f) : Recorded s' f := by
  obtain ⟨row, hrow, hf⟩ := h
  exact ⟨row, mem_of_find? (hkeep _ _ (find?_of_mem hrow)), hf⟩

/-- **The snapshot of a period that is over** holds the last values: its date is free. -/
theorem recorded_archive (ht : Timely s) (hle : s.clock ≤ now)
    (hfirst : periodStart p now = utcDay now) (hturn : s.TurnedOver p now)
    (hf : f ∈ s.lastValues p (periodStart p now * msPerDay)) : Recorded (archive s p now) f := by
  obtain ⟨row, hrow, hpos, hrank, hund, rfl⟩ := mem_lastValues.mp hf
  obtain ⟨rank, hrank⟩ := Option.isSome_iff_exists.mp hrank
  have hdate : periodStart p now * msPerDay = dateTruncDay now := by rw [hfirst, dateTruncDay]
  have hnew : RankHistoryRow.mk row.userId p (dateTruncDay now) rank (getXp row p) now
      ∈ snapshotRows s p now := mem_snapshotRows.mpr ⟨row, hrow, rank, hrank, hund, hpos, rfl⟩
  -- every older snapshot is of an earlier day
  have hfree : s.history.find? (row.userId, p, dateTruncDay now) = none := by
    cases hold : s.history.find? (row.userId, p, dateTruncDay now) with
    | none => rfl
    | some r =>
      have hkey : r.snapshotDate = dateTruncDay now :=
        congrArg (·.2.2) (key_of_find? hold)
      have hday : utcDay s.clock < utcDay now :=
        lt_of_le_of_ne (utcDay_mono hle) fun heq => hturn (periodStart_of_utcDay heq)
      have hlt := dateTruncDay_lt_iff.mpr hday
      have hpast := ht.history_le r (mem_of_find? hold)
      omega
  -- of the snapshot rows of this user the first is found; all of them are of the one row
  obtain ⟨r, hr⟩ : ∃ r, (snapshotRows s p now).find?
      (fun r => r.snapshot = (row.userId, p, dateTruncDay now)) = some r :=
    Option.isSome_iff_exists.mp (List.find?_isSome.mpr ⟨_, hnew, decide_eq_true rfl⟩)
  obtain ⟨row', hrow', rank', -, -, -, hr'⟩ := mem_snapshotRows.mp (List.mem_of_find?_eq_some hr)
  have hfound : (archive s p now).history.find? (row.userId, p, dateTruncDay now) = some r := by
    simp only [archive, find?_insertMissing, hfree, hr, Option.none_or]
  have hkey := key_of_find? hfound
  subst hr'
  have hsame : row' = row := eq_of_key_eq hrow' hrow (congrArg (·.1) hkey)
  refine ⟨_, mem_of_find? hfound, ?_, rfl, hdate.symm, ?_⟩
  · rw [hsame]
  · rw [hsame]

/-- **A step that keeps the counters exact leaves every finished value recorded.** -/
theorem recorded_step (ht : Timely s) (hc : Upheld s a) (hrec : ∀ f ∈ s.finished, Recorded s f)
    (hstep : step s a = some s') : ∀ f ∈ s'.finished, Recorded s' f := by
  intro f hf
  cases a with
  | xp e =>
    obtain ⟨-, -, t, -, rfl⟩ := applyXp_cases hstep
    rcases mem_tick_finished.mp hf with hold | ⟨hturn, hnew⟩
    · exact (hrec f hold).of_find? fun _ _ hr => hr
    · exact absurd hnew (not_mem_lastValues_of_idle (hc.1 _ (mem_allPeriods _) hturn) _ _)
  | reset p now between =>
    obtain ⟨hle, hfirst, -, m, hrun, rfl⟩ := reset_cases hstep
    obtain ⟨rfl, -, hother⟩ := hc
    cases hrun
    have harchive : Recorded (archive s p now) f := by
      rcases mem_tick_finished.mp hf with hold | ⟨hturn, hnew⟩
      · refine (hrec f hold).of_find? fun k r hr => ?_
        simp only [archive, find?_insertMissing, hr, Option.some_or]
      · by_cases hp : f.period = p
        · subst hp
          exact recorded_archive ht hle hfirst hturn hnew
        · exact absurd hnew
            (not_mem_lastValues_of_idle (hother _ (mem_allPeriods _) hp hturn) _ _)
    exact harchive.of_find? fun _ _ hr => hr
  | account userId info =>
    cases hstep
    exact (hrec f hf).of_find? fun _ _ hr => hr
  | rank userId p rank =>
    cases hstep
    exact (hrec f hf).of_find? fun _ _ hr => hr

/-! ## Whole runs -/

theorem Exact.initial (clock : Int) : Exact (.initial clock) := fun _ _ => rfl

/-- **Period counters and their history.** In every run of XP events and resets the counters of
every user are, after every step, the sums over the current day, week and month, and every reset
leaves the last values of the finished period in `rank_history`, exactly when, after a boundary, the
period's own reset comes before anything else that the positive counters could see, no XP comes
between its two statements, and no `CASE` of an XP update fires. -/
theorem counters_exact_iff (clock : Int) (actions : List Action) (s : State)
    (h : exec step (.initial clock) actions = some s) :
    (Always step Exact (.initial clock) actions ∧
      EachStep step ResetRecords (.initial clock) actions) ↔
      Along step Upheld (.initial clock) actions := by
  have halways : Always step Exact (.initial clock) actions ↔
      Along step Upheld (.initial clock) actions :=
    along_iff_always (I := Timely) (fun _ _ _ ht hstep => ht.step hstep)
      (fun _ _ _ ht hex hstep => exact_step_iff hex ht hstep) h (Timely.initial clock)
      (Exact.initial clock)
  refine ⟨fun hgood => halways.mp hgood.1, fun hc => ⟨halways.mpr hc, ?_⟩⟩
  intro pre a m m' hpre hm hstep
  have hreach := exec_snoc.mpr ⟨m, hm, hstep⟩
  have hall : Timely m' ∧ ∀ f ∈ m'.finished, Recorded m' f :=
    (hc.of_prefix hpre).invariant (I := fun s => Timely s ∧ ∀ f ∈ s.finished, Recorded s f)
      (fun _ _ _ hs hcs hst => ⟨hs.1.step hst, recorded_step hs.1 hcs hs.2 hst⟩) hreach
      ⟨Timely.initial clock, fun _ hf => absurd hf List.not_mem_nil⟩
  cases a with
  | reset p now between => exact fun f hf _ => hall.2 f hf
  | xp e => trivial
  | account userId info => trivial
  | rank userId p rank => trivial

/-- A hundred XP on Monday the 5th, the reset at half past midnight, and fifty XP after it. -/
def resetBeforeXp : List Action :=
  [.account "01900000-0000-7000-8000-000000000001" ⟨0, none⟩,
   .xp ⟨"01900000-0000-7000-8000-000000000001", 100, 388800000⟩,
   .rank "01900000-0000-7000-8000-000000000001" .daily 1,
   .reset .daily 433800000 [],
   .xp ⟨"01900000-0000-7000-8000-000000000001", 50, 435600000⟩]

theorem counters_exact_resetBeforeXp :
    ∃ s, exec step (.initial 345600000) resetBeforeXp = some s ∧
      allPeriods.map (counter s.ranking "01900000-0000-7000-8000-000000000001")
        = [150, 150, 150, 50] ∧
      s.history.rows.map (·.xp) = [100] ∧
      Always step Exact (.initial 345600000) resetBeforeXp ∧
      EachStep step ResetRecords (.initial 345600000) resetBeforeXp := by
  refine exists_of_read
    (fun s => (allPeriods.map (counter s.ranking "01900000-0000-7000-8000-000000000001"),
      s.history.rows.map (·.xp)))
    ([150, 150, 150, 50], [100]) (by decide +kernel) fun s hs hread => ?_
  simp only [Prod.mk.injEq] at hread
  exact ⟨hread.1, hread.2,
    (counters_exact_iff _ _ s hs).mpr (by decide +kernel)⟩

def xpBeforeReset : List Action :=
  [.account "01900000-0000-7000-8000-000000000001" ⟨0, none⟩,
   .xp ⟨"01900000-0000-7000-8000-000000000001", 100, 388800000⟩,
   .rank "01900000-0000-7000-8000-000000000001" .daily 1,
   .xp ⟨"01900000-0000-7000-8000-000000000001", 50, 432300000⟩,
   .xp ⟨"01900000-0000-7000-8000-000000000001", 50, 432600000⟩]

/-- The first fifty are lost to the `CASE` and the second to the reset, which files them as the
value of Monday; the hundred of Monday are filed nowhere. -/
theorem xp_lost_between_midnight_and_reset :
    (∃ s, exec step (.initial 345600000) (xpBeforeReset ++ [.reset .daily 433800000 []]) = some s ∧
      counter s.ranking "01900000-0000-7000-8000-000000000001" .daily = 0 ∧
      s.processed "01900000-0000-7000-8000-000000000001" .daily s.clock = 100 ∧
      s.finished.map (fun f => (f.period, f.xp)) = [(.daily, 100)] ∧
      s.history.rows.map (fun r => (r.period, r.xp)) = [(.daily, 50)]) ∧
    ¬ Always step Exact (.initial 345600000) (xpBeforeReset ++ [.reset .daily 433800000 []]) ∧
    ¬ EachStep step ResetRecords (.initial 345600000)
        (xpBeforeReset ++ [.reset .daily 433800000 []]) := by
  obtain ⟨s, hs, hread⟩ : ∃ s, exec step (.initial 345600000)
        (xpBeforeReset ++ [.reset .daily 433800000 []]) = some s ∧
      (counter s.ranking "01900000-0000-7000-8000-000000000001" .daily,
        s.processed "01900000-0000-7000-8000-000000000001" .daily s.clock,
        s.finished.map (fun f => (f.period, f.xp)),
        s.history.rows.map (fun r => (r.period, r.xp)))
        = (0, 100, [(.daily, 100)], [(.daily, 50)]) :=
    Option.map_eq_some_iff.mp (by decide +kernel)
  simp only [Prod.mk.injEq] at hread
  obtain ⟨hcounter, hprocessed, hfinished, hhistory⟩ := hread
  refine ⟨⟨s, hs, hcounter, hprocessed, hfinished, hhistory⟩, ?_, ?_⟩
  · intro halways
    have hexact := halways _ s (List.prefix_refl _) hs
      "01900000-0000-7000-8000-000000000001" .daily
    rw [hcounter, hprocessed] at hexact
    exact absurd hexact (by decide)
  · intro heach
    obtain ⟨m, hm, hstep⟩ := exec_snoc.mp hs
    have hrecords : ∀ f ∈ s.finished, f.period = .daily → Recorded s f :=
      heach _ _ m s (List.prefix_refl _) hm hstep
    obtain ⟨f, hf, hpair⟩ := List.mem_map.mp
      (show (RankingPeriod.daily, (100 : Int)) ∈ s.finished.map (fun f => (f.period, f.xp)) by
        rw [hfinished]
        exact List.mem_singleton_self _)
    simp only [Prod.mk.injEq] at hpair
    obtain ⟨row, hrow, -, -, -, hxp⟩ := hrecords f hf hpair.1
    have hrow' := List.mem_map_of_mem (f := fun r : RankHistoryRow => (r.period, r.xp)) hrow
    rw [hhistory, List.mem_singleton, Prod.mk.injEq, hxp, hpair.2] at hrow'
    exact absurd hrow'.2 (by decide)

end QuizBackend.Ranking.PeriodReset
