import QuizBackend.Attempt.Terminality
import Mathlib.Data.Finset.Card

/-!
# The statistics of a quiz

`quiz_stats` has two writers. A completion adds one to `total_attempts` in its own transaction;
`refreshQuizMetrics` counts the completed attempts and their users in queries of their own and then
overwrites both columns with what it has read. Of two refreshes the one that has read less may be the
one that writes last, and nothing corrects it until the next refresh: the row is right at the end of a
run just when the last refresh to write had read what was still true when it wrote (`converged_iff`).

The attempts run as in `Attempt.Requests`. A completion holds the lock of the `quiz_stats` row from its
upsert to its commit, so the upsert may be read where it commits; what has to wait for the lock is a
later step here. The queries of a refresh reach the database in any order. Its mean score is given with
the step, and of the columns that only the analytics module uses nothing is kept.
-/

namespace QuizBackend.Quiz.Analytics

open Lib Attempt Table Analytics

/-! ## `QuizAnalyticsRepository` -/

structure QuizStatsData where
  totalAttempts : Option Nat
  totalPlayers : Option Nat
  avgScorePercent : Option Nat
  lastAttemptAt : Option Int

def buildUpsertValues (quizId : Uuid) (data : QuizStatsData) (nowIso : Int) : QuizStatsRow :=
  { quizId
    totalAttempts := data.totalAttempts.getD 0
    totalPlayers := data.totalPlayers.getD 0
    avgScorePercent := data.avgScorePercent.getD 0
    lastAttemptAt := data.lastAttemptAt
    updatedAt := nowIso }

def buildUpsertSet (data : QuizStatsData) (nowIso : Int) (row : QuizStatsRow) : QuizStatsRow :=
  { row with
    totalAttempts := data.totalAttempts.getD row.totalAttempts
    totalPlayers := data.totalPlayers.getD row.totalPlayers
    avgScorePercent := data.avgScorePercent.getD row.avgScorePercent
    lastAttemptAt := data.lastAttemptAt.or row.lastAttemptAt
    updatedAt := nowIso }

theorem buildUpsertSet_quizId (data : QuizStatsData) (nowIso : Int) (row : QuizStatsRow) :
    (buildUpsertSet data nowIso row).quizId = row.quizId := rfl

abbrev QuizStats := Table Uuid QuizStatsRow QuizStatsRow.quizId

def upsertQuizStats (stats : QuizStats) (quizId : Uuid) (data : QuizStatsData) (nowIso : Int) :
    QuizStats :=
  match stats.insert? (buildUpsertValues quizId data nowIso) with
  | some inserted => inserted
  | none => stats.modify quizId (buildUpsertSet data nowIso) (buildUpsertSet_quizId data nowIso)

/-! ## `MetricsRepository` -/

def completedAttempts (cat : Catalog) (db : Db) (quizId : Uuid) : List AttemptRow :=
  db.quizAttempts.rows.filter fun row =>
    row.status = .completed ∧ (cat.version row.quizVersionId).map (·.quizId) = some quizId

def calculateTotalAttempts (cat : Catalog) (db : Db) (quizId : Uuid) : Nat :=
  (completedAttempts cat db quizId).length

def calculateUniquePlayers (cat : Catalog) (db : Db) (quizId : Uuid) : Nat :=
  ((completedAttempts cat db quizId).map (·.userId)).dedup.length

/-! ## The system -/

structure Refresh where
  refreshId : String
  quizId : Uuid
  nowIso : Int
  totalAttempts : Option Nat
  uniquePlayers : Option Nat
  averageScore : Option Nat

def Refresh.data? (r : Refresh) : Option QuizStatsData :=
  match r.totalAttempts, r.uniquePlayers, r.averageScore with
  | some totalAttempts, some uniquePlayers, some averageScore => some
    { totalAttempts := some totalAttempts, totalPlayers := some uniquePlayers,
      avgScorePercent := some averageScore, lastAttemptAt := some r.nowIso }
  | _, _, _ => none

structure System where
  attempts : Attempt.State
  refreshes : Table String Refresh (·.refreshId)
  uncovered : List Uuid

inductive Action where
  | attempt (a : Attempt.Action)
  | refreshQuizMetrics (refreshId : String) (quizId : Uuid) (nowIso : Int)
  | calculateTotalAttempts (refreshId : String)
  | calculateUniquePlayers (refreshId : String)
  | calculateAverageScore (refreshId : String) (averageScore : Nat)
  | upsertQuizStats (refreshId : String) (nowIso : Int)
  /-- the other recomputations, which write none of these columns -/
  | recompute (quizId : Uuid) (nowIso : Int)

def completedQuiz : Write → List Uuid
  | .completeAttempt _ p => [p.quizId]
  | _ => []

namespace System

variable (s : System)

def db : Db := s.attempts.db

def withStats (stats : QuizStats) : System :=
  { s with attempts := { s.attempts with db := { s.attempts.db with quizStats := stats } } }

def answered (refreshId : String) (f : Refresh → Refresh) (hf : ∀ r, (f r).refreshId = r.refreshId) :
    System :=
  { s with refreshes := s.refreshes.modify refreshId f hf }

def step (cat : Catalog) (s : System) : Action → Option System
  | .attempt a =>
    (Attempt.step cat s.attempts a).map fun attempts =>
      { s with attempts, uncovered := completedQuiz (s.attempts.writes cat a) ++ s.uncovered }
  | .refreshQuizMetrics refreshId quizId nowIso =>
    (s.refreshes.insert? ⟨refreshId, quizId, nowIso, none, none, none⟩).map fun refreshes =>
      { s with refreshes, uncovered := s.uncovered.filter (· ≠ quizId) }
  | .calculateTotalAttempts refreshId =>
    (s.refreshes.find? refreshId).bind fun r =>
      if r.totalAttempts.isSome then none
      else
        let totalAttempts := some (calculateTotalAttempts cat s.db r.quizId)
        some (s.answered refreshId (fun r => { r with totalAttempts }) fun _ => rfl)
  | .calculateUniquePlayers refreshId =>
    (s.refreshes.find? refreshId).bind fun r =>
      if r.uniquePlayers.isSome then none
      else
        let uniquePlayers := some (calculateUniquePlayers cat s.db r.quizId)
        some (s.answered refreshId (fun r => { r with uniquePlayers }) fun _ => rfl)
  | .calculateAverageScore refreshId averageScore =>
    (s.refreshes.find? refreshId).bind fun r =>
      if r.averageScore.isSome then none
      else some (s.answered refreshId (fun r => { r with averageScore := some averageScore })
        fun _ => rfl)
  | .upsertQuizStats refreshId nowIso =>
    (s.refreshes.find? refreshId).bind fun r =>
      r.data?.map fun data =>
        { s.withStats (upsertQuizStats s.db.quizStats r.quizId data nowIso) with
          refreshes := s.refreshes.erase refreshId }
  | .recompute quizId nowIso =>
    some (s.withStats
      (upsertQuizStats s.db.quizStats quizId ⟨none, none, none, none⟩ nowIso))

def initial (users : Table Uuid Streak.UserRow Streak.UserRow.userId)
    (roundParticipants : Table (Uuid × Uuid) RoundParticipantRow RoundParticipantRow.key) : System :=
  ⟨Attempt.State.initial users roundParticipants, empty _, []⟩

/-- No refresh is pending, and none is missing. -/
structure Settled (quizId : Uuid) : Prop where
  covered : quizId ∉ s.uncovered
  finished : ∀ r ∈ s.refreshes.rows, r.quizId ≠ quizId

def IsCurrent (cat : Catalog) (r : Refresh) : Prop :=
  r.totalAttempts = some (calculateTotalAttempts cat s.db r.quizId) ∧
    r.uniquePlayers = some (calculateUniquePlayers cat s.db r.quizId)

instance (cat : Catalog) (r : Refresh) : Decidable (s.IsCurrent cat r) :=
  inferInstanceAs (Decidable (_ ∧ _))

/-- The action is the write of a refresh of the quiz: whether of what is still true. -/
def overwrites (cat : Catalog) (quizId : Uuid) (s : System) : Action → Option Bool
  | .upsertQuizStats refreshId _ =>
    (s.refreshes.find? refreshId).bind fun r =>
      if r.quizId = quizId then some (decide (s.IsCurrent cat r)) else none
  | _ => none

end System

/-- `quiz_stats.total_players` of a quiz; 0 without a row. -/
def totalPlayers (db : Db) (quizId : Uuid) : Nat :=
  ((db.quizStats.find? quizId).map (·.totalPlayers)).getD 0

/-- The stored numbers are those of the attempts. -/
structure Converged (cat : Catalog) (db : Db) (quizId : Uuid) : Prop where
  attempts : db.totalAttempts quizId = calculateTotalAttempts cat db quizId
  players : totalPlayers db quizId = calculateUniquePlayers cat db quizId

/-! ## What an upsert does -/

theorem find?_upsertQuizStats_of_ne {quizId other : Uuid} (h : other ≠ quizId) (stats : QuizStats)
    (data : QuizStatsData) (nowIso : Int) :
    (upsertQuizStats stats quizId data nowIso).find? other = stats.find? other := by
  unfold upsertQuizStats
  split
  · next inserted hinserted =>
    rw [find?_insert? hinserted, if_neg (fun heq => h heq.symm)]
  · rw [find?_modify, if_neg h]

theorem counts_upsertQuizStats (stats : QuizStats) (quizId : Uuid) (data : QuizStatsData)
    (nowIso : Int) :
    (((upsertQuizStats stats quizId data nowIso).find? quizId).map (·.totalAttempts)).getD 0
        = data.totalAttempts.getD (((stats.find? quizId).map (·.totalAttempts)).getD 0) ∧
      (((upsertQuizStats stats quizId data nowIso).find? quizId).map (·.totalPlayers)).getD 0
        = data.totalPlayers.getD (((stats.find? quizId).map (·.totalPlayers)).getD 0) := by
  unfold upsertQuizStats
  split
  · next inserted hinserted =>
    have hfree : stats.find? quizId = none := find?_of_insert? hinserted
    have hrow : inserted.find? quizId = some (buildUpsertValues quizId data nowIso) := by
      rw [find?_insert? hinserted]
      exact if_pos rfl
    rw [hrow, hfree]
    exact ⟨rfl, rfl⟩
  · next htaken =>
    obtain ⟨row, hrow⟩ := find?_of_insert?_none htaken
    have hrow : stats.find? quizId = some row := hrow
    rw [find?_modify, if_pos rfl, hrow]
    exact ⟨rfl, rfl⟩

/-! ## What a step of the attempts does to the counts -/

section Counts

variable {cat : Catalog} {quizId : Uuid}

def countsFor (cat : Catalog) (quizId : Uuid) (row : AttemptRow) : Bool :=
  row.status = .completed ∧ (cat.version row.quizVersionId).map (·.quizId) = some quizId

theorem mem_players {db : Db} {userId : Uuid} :
    userId ∈ (completedAttempts cat db quizId).map (·.userId) ↔
      0 < db.quizAttempts.rows.countP fun row =>
        countsFor cat quizId row && decide (row.userId = userId) := by
  simp only [List.countP_pos_iff, completedAttempts, List.mem_map, List.mem_filter, countsFor,
    Bool.and_eq_true, decide_eq_true_eq, and_assoc]

theorem counts_congr {db db' : Db}
    (h : ∀ q : AttemptRow → Bool, (∀ row, q row = true → countsFor cat quizId row = true) →
      db'.quizAttempts.rows.countP q = db.quizAttempts.rows.countP q) :
    calculateTotalAttempts cat db' quizId = calculateTotalAttempts cat db quizId ∧
      calculateUniquePlayers cat db' quizId = calculateUniquePlayers cat db quizId := by
  constructor
  · have hcount := h (countsFor cat quizId) fun _ hrow => hrow
    rw [List.countP_eq_length_filter, List.countP_eq_length_filter] at hcount
    exact hcount
  · have hsame : ∀ userId, userId ∈ (completedAttempts cat db' quizId).map (·.userId) ↔
        userId ∈ (completedAttempts cat db quizId).map (·.userId) := by
      intro userId
      rw [mem_players, mem_players, h _ fun row hrow => (Bool.and_eq_true_iff.mp hrow).1]
    have hset : ((completedAttempts cat db' quizId).map (·.userId)).toFinset
        = ((completedAttempts cat db quizId).map (·.userId)).toFinset := by
      ext userId
      rw [List.mem_toFinset, List.mem_toFinset, hsame]
    rw [calculateUniquePlayers, calculateUniquePlayers, ← List.card_toFinset, hset,
      List.card_toFinset]

/-- A step of the attempts that completes none on the quiz leaves its statistics and counts alone. -/
theorem attempt_step {s s' : Attempt.State} {a : Attempt.Action} (hinv : Inv cat s)
    (h : Attempt.step cat s a = some s') (hq : quizId ∉ completedQuiz (s.writes cat a)) :
    s'.db.quizStats.find? quizId = s.db.quizStats.find? quizId ∧
      calculateTotalAttempts cat s'.db quizId = calculateTotalAttempts cat s.db quizId ∧
        calculateUniquePlayers cat s'.db quizId = calculateUniquePlayers cat s.db quizId := by
  obtain ⟨hdb, es, -, hlic⟩ := step_licensed h
  rw [hdb]
  generalize s.writes cat a = w at hlic hq
  cases hw : w.completes with
  | none =>
    refine ⟨?_, counts_congr fun q hq => hinv.countP_apply hlic hw fun row hrow =>
      (of_decide_eq_true (hq row hrow)).1⟩
    cases w with
    | completeAttempt => cases hw
    | _ => rfl
  | some b =>
    cases hlic with
    | @completeAttempt _ d p _ request fresh =>
      have hne : p.quizId ≠ quizId := fun heq => hq (List.mem_singleton.mpr heq.symm)
      obtain ⟨row, hrow, hst, -, hquiz, -⟩ := hinv.completing request
      refine ⟨?_, counts_congr fun q hq => ?_⟩
      · show (Attempt.upsertQuizStats s.db.quizStats p).find? quizId = _
        unfold Attempt.upsertQuizStats
        split
        · next inserted hinserted => rw [find?_insert? hinserted, if_neg hne]
        · rw [find?_modify, if_neg (Ne.symm hne)]
      · have hother : q (setCompleted p row) = false := by
          refine Bool.eq_false_iff.mpr fun htrue => hne ?_
          have hcounts := (of_decide_eq_true (hq _ htrue)).2
          exact Option.some.inj (hquiz.symm.trans hcounts)
        rw [countP_complete (fun row hrow => (of_decide_eq_true (hq row hrow)).1) hrow hst, hother]
        rfl
    | _ => cases hw

end Counts

/-! ## Whole runs -/

variable {o : Option Bool} {r : Refresh}

section Runs

variable {cat : Catalog} {quizId : Uuid} {s s' : System}

/-- What is known of the statistics at the end of a run in which the last refresh of the quiz to write
has written current counts, or not, as `o` says. -/
structure Known (cat : Catalog) (quizId : Uuid) (s : System) (o : Option Bool) : Prop where
  inv : Inv cat s.attempts
  converged : s.Settled quizId → (Converged cat s.db quizId ↔ o ≠ some false)

theorem Converged.congr {db db' : Db}
    (hstats : db'.quizStats.find? quizId = db.quizStats.find? quizId)
    (hcounts : calculateTotalAttempts cat db' quizId = calculateTotalAttempts cat db quizId ∧
      calculateUniquePlayers cat db' quizId = calculateUniquePlayers cat db quizId) :
    Converged cat db' quizId ↔ Converged cat db quizId := by
  have htotal : db'.totalAttempts quizId = db.totalAttempts quizId := by
    rw [Db.totalAttempts, hstats, Db.totalAttempts]
  have hplayers : totalPlayers db' quizId = totalPlayers db quizId := by
    rw [totalPlayers, hstats, totalPlayers]
  constructor
  · exact fun h => ⟨htotal ▸ hcounts.1 ▸ h.attempts, hplayers ▸ hcounts.2 ▸ h.players⟩
  · exact fun h => ⟨by rw [htotal, hcounts.1, h.attempts], by rw [hplayers, hcounts.2, h.players]⟩

theorem inv_withStats (h : Inv cat s.attempts) (stats : QuizStats) :
    Inv cat (s.withStats stats).attempts := by
  refine ⟨h.exclusive, fun i r hr => ?_⟩
  have hok := h.ok i r hr
  cases r <;> exact hok

theorem counts_withStats (s : System) (stats : QuizStats) :
    calculateTotalAttempts cat (s.withStats stats).db quizId
        = calculateTotalAttempts cat s.db quizId ∧
      calculateUniquePlayers cat (s.withStats stats).db quizId
        = calculateUniquePlayers cat s.db quizId := ⟨rfl, rfl⟩

theorem Known.answered (h : Known cat quizId s o) {refreshId : String}
    (hr : s.refreshes.find? refreshId = some r) (f : Refresh → Refresh)
    (hf : ∀ r, (f r).refreshId = r.refreshId) (hquiz : (f r).quizId = r.quizId) :
    Known cat quizId (s.answered refreshId f hf) o := by
  refine ⟨h.inv, fun hsettled => h.converged ⟨hsettled.covered, fun x hx hxq => ?_⟩⟩
  by_cases hsame : x.refreshId = refreshId
  · have hx' : x = r := eq_of_key_eq hx (mem_of_find? hr)
      (hsame.trans (key_of_find? hr).symm)
    have hmem : f r ∈ (s.answered refreshId f hf).refreshes.rows := mem_modify_self f hf hr
    exact hsettled.finished (f r) hmem (hquiz.trans (hx' ▸ hxq))
  · have hmem : x ∈ (s.answered refreshId f hf).refreshes.rows :=
      mem_modify_of_ne f hf hx hsame
    exact hsettled.finished x hmem hxq

theorem data?_eq_some {data : QuizStatsData} (h : r.data? = some data) :
    ∃ t p, r.totalAttempts = some t ∧ r.uniquePlayers = some p ∧ data.totalAttempts = some t ∧
      data.totalPlayers = some p := by
  unfold Refresh.data? at h
  split at h
  · next ht hp _ =>
    obtain rfl := Option.some.inj h
    exact ⟨_, _, ht, hp, rfl, rfl⟩
  · cases h

theorem Known.upsert (h : Known cat quizId s o) {refreshId : String} {data : QuizStatsData}
    {nowIso : Int} (hr : s.refreshes.find? refreshId = some r) (hdata : r.data? = some data) :
    Known cat quizId
      { s.withStats (upsertQuizStats s.db.quizStats r.quizId data nowIso) with
        refreshes := s.refreshes.erase refreshId }
      ((s.overwrites cat quizId (.upsertQuizStats refreshId nowIso)).or o) := by
  have hoverwrites : s.overwrites cat quizId (.upsertQuizStats refreshId nowIso)
      = if r.quizId = quizId then some (decide (s.IsCurrent cat r)) else none := by
    rw [System.overwrites, hr, Option.bind_some]
  refine ⟨inv_withStats h.inv _, fun hsettled => ?_⟩
  rw [hoverwrites]
  by_cases hquiz : r.quizId = quizId
  · subst hquiz
    obtain ⟨htotal, hplayers⟩ := counts_upsertQuizStats s.db.quizStats r.quizId data nowIso
    obtain ⟨t, p, ht, hp, hdt, hdp⟩ := data?_eq_some hdata
    rw [hdt, Option.getD_some] at htotal
    rw [hdp, Option.getD_some] at hplayers
    have hcurrent : s.IsCurrent cat r ↔ t = calculateTotalAttempts cat s.db r.quizId ∧
        p = calculateUniquePlayers cat s.db r.quizId := by
      rw [System.IsCurrent, ht, hp, Option.some.injEq, Option.some.injEq]
    rw [if_pos rfl, Option.some_or, ne_eq, Option.some.injEq, decide_eq_false_iff_not, not_not,
      hcurrent]
    constructor
    · exact fun hc => ⟨htotal.symm.trans hc.attempts, hplayers.symm.trans hc.players⟩
    · exact fun hc => ⟨htotal.trans hc.1, hplayers.trans hc.2⟩
  · rw [if_neg hquiz, Option.none_or]
    have hsettled' : s.Settled quizId := by
      refine ⟨hsettled.covered, fun x hx => ?_⟩
      by_cases hsame : x.refreshId = refreshId
      · have hx' : x = r := eq_of_key_eq hx (mem_of_find? hr)
          (hsame.trans (key_of_find? hr).symm)
        exact hx' ▸ hquiz
      · exact hsettled.finished x (mem_erase.mpr ⟨hx, hsame⟩)
    refine Iff.trans (Converged.congr ?_ (counts_withStats s _)) (h.converged hsettled')
    exact find?_upsertQuizStats_of_ne (Ne.symm hquiz) s.db.quizStats data nowIso

theorem Known.step (h : Known cat quizId s o) {a : Action} (hstep : s.step cat a = some s') :
    Known cat quizId s' ((s.overwrites cat quizId a).or o) := by
  cases a with
  | attempt a =>
    obtain ⟨attempts, hattempts, rfl⟩ := Option.map_eq_some_iff.mp hstep
    refine ⟨h.inv.next hattempts, fun hsettled => ?_⟩
    have hnotmem := List.mem_append.not.mp hsettled.covered
    obtain ⟨hnot, hcovered⟩ := not_or.mp hnotmem
    obtain ⟨hstats, hcounts⟩ := attempt_step h.inv hattempts hnot
    exact (Converged.congr hstats hcounts).trans (h.converged ⟨hcovered, hsettled.finished⟩)
  | refreshQuizMetrics refreshId quiz nowIso =>
    obtain ⟨refreshes, hrefreshes, rfl⟩ := Option.map_eq_some_iff.mp hstep
    have hrows := rows_of_insert? hrefreshes
    refine ⟨h.inv, fun hsettled => h.converged ⟨fun hmem => ?_, fun r hr => ?_⟩⟩
    · have hne : quizId ≠ quiz := fun heq => hsettled.finished _
        (hrows ▸ List.mem_append_right _ (List.mem_singleton.mpr rfl)) heq.symm
      exact hsettled.covered (List.mem_filter.mpr ⟨hmem, decide_eq_true hne⟩)
    · exact hsettled.finished r (hrows ▸ List.mem_append_left _ hr)
  | calculateTotalAttempts refreshId =>
    obtain ⟨r, hr, hnext⟩ := Option.bind_eq_some_iff.mp hstep
    split at hnext
    · cases hnext
    · cases hnext
      exact h.answered hr _ _ rfl
  | calculateUniquePlayers refreshId =>
    obtain ⟨r, hr, hnext⟩ := Option.bind_eq_some_iff.mp hstep
    split at hnext
    · cases hnext
    · cases hnext
      exact h.answered hr _ _ rfl
  | calculateAverageScore refreshId averageScore =>
    obtain ⟨r, hr, hnext⟩ := Option.bind_eq_some_iff.mp hstep
    split at hnext
    · cases hnext
    · cases hnext
      exact h.answered hr _ _ rfl
  | upsertQuizStats refreshId nowIso =>
    obtain ⟨r, hr, hnext⟩ := Option.bind_eq_some_iff.mp hstep
    obtain ⟨data, hdata, rfl⟩ := Option.map_eq_some_iff.mp hnext
    exact h.upsert hr hdata
  | recompute quiz nowIso =>
    obtain rfl := Option.some.inj hstep
    refine ⟨inv_withStats h.inv _, fun hsettled => Iff.trans ?_ (h.converged ?_)⟩
    · by_cases hquiz : quizId = quiz
      · subst hquiz
        obtain ⟨htotal, hplayers⟩ :=
          counts_upsertQuizStats s.db.quizStats quizId ⟨none, none, none, none⟩ nowIso
        constructor
        · exact fun hc => ⟨htotal.symm.trans hc.attempts, hplayers.symm.trans hc.players⟩
        · exact fun hc => ⟨htotal.trans hc.attempts, hplayers.trans hc.players⟩
      · refine Converged.congr ?_ (counts_withStats s _)
        exact find?_upsertQuizStats_of_ne hquiz s.db.quizStats ⟨none, none, none, none⟩ nowIso
    · exact ⟨hsettled.covered, hsettled.finished⟩

/-- Where every completion of a quiz is followed by a refresh and all of them have finished, the
statistics are right just when the last refresh to write has written counts that were current. -/
theorem converged_iff {users : Table Uuid Streak.UserRow Streak.UserRow.userId}
    {roundParticipants : Table (Uuid × Uuid) RoundParticipantRow RoundParticipantRow.key}
    {as : List Action} (h : exec (System.step cat) (System.initial users roundParticipants) as = some s)
    (quizId : Uuid) (hsettled : s.Settled quizId) :
    Converged cat s.db quizId ↔
      latest (System.step cat) (System.overwrites cat quizId)
        (System.initial users roundParticipants) as ≠ some false := by
  have hinitial : Known cat quizId (System.initial users roundParticipants) none :=
    ⟨Inv.initial cat _ _, fun _ => iff_of_true ⟨rfl, rfl⟩ nofun⟩
  have hknown := latest_invariant (J := Known cat quizId) (fun _ _ _ _ hk hs => hk.step hs) h hinitial
  rw [Option.or_none] at hknown
  exact hknown.converged hsettled

end Runs

def reads (refreshId : String) (nowIso : Int) : List Action :=
  [.refreshQuizMetrics refreshId 1 nowIso, .calculateTotalAttempts refreshId,
    .calculateUniquePlayers refreshId, .calculateAverageScore refreshId 0]

/-- The player's second attempt is completed between the reads of the first refresh and its write; the
refreshes write in the order of `last`. -/
def twoAttempts (last : List Action) : List Action :=
  (played 0).map .attempt ++ reads "a" 2 ++ (played 1).map .attempt ++ reads "b" 3 ++ last

def quizLobby : System := System.initial lobby.db.users lobby.db.roundParticipants

theorem inOrder_runs : (exec (System.step oneQuiz) quizLobby
    (twoAttempts [.upsertQuizStats "a" 4, .upsertQuizStats "b" 5])).isSome = true := by
  decide +kernel

/-- The later refresh writes last. -/
theorem converged_inOrder : ∃ s, exec (System.step oneQuiz) quizLobby
    (twoAttempts [.upsertQuizStats "a" 4, .upsertQuizStats "b" 5]) = some s ∧
      calculateTotalAttempts oneQuiz s.db 1 = 2 ∧ Converged oneQuiz s.db 1 := by
  have hrun := (Option.some_get inOrder_runs).symm
  refine ⟨_, hrun, by decide +kernel, ?_⟩
  refine (converged_iff hrun 1 ⟨by decide +kernel, ?_⟩).mpr (by decide +kernel)
  rw [List.length_eq_zero_iff.mp (by decide +kernel :
    ((exec (System.step oneQuiz) quizLobby _).get inOrder_runs).refreshes.rows.length = 0)]
  exact fun _ h => absurd h List.not_mem_nil

theorem outOfOrder_runs : (exec (System.step oneQuiz) quizLobby
    (twoAttempts [.upsertQuizStats "b" 4, .upsertQuizStats "a" 5])).isSome = true := by
  decide +kernel

/-- The earlier refresh writes last: the row says one attempt where there are two. -/
theorem stale_refresh_stays : ∃ s, exec (System.step oneQuiz) quizLobby
    (twoAttempts [.upsertQuizStats "b" 4, .upsertQuizStats "a" 5]) = some s ∧ s.Settled 1 ∧
      s.db.totalAttempts 1 = 1 ∧ calculateTotalAttempts oneQuiz s.db 1 = 2 ∧
      ¬ Converged oneQuiz s.db 1 := by
  have hstats : ((exec (System.step oneQuiz) quizLobby
      (twoAttempts [.upsertQuizStats "b" 4, .upsertQuizStats "a" 5])).get
        outOfOrder_runs).db.totalAttempts 1 = 1 := by decide +kernel
  have hcount : calculateTotalAttempts oneQuiz ((exec (System.step oneQuiz) quizLobby
      (twoAttempts [.upsertQuizStats "b" 4, .upsertQuizStats "a" 5])).get outOfOrder_runs).db 1
        = 2 := by decide +kernel
  refine ⟨_, (Option.some_get outOfOrder_runs).symm, ⟨by decide +kernel, ?_⟩, hstats, hcount,
    fun h => ?_⟩
  · rw [List.length_eq_zero_iff.mp (by decide +kernel :
      ((exec (System.step oneQuiz) quizLobby _).get outOfOrder_runs).refreshes.rows.length = 0)]
    exact fun _ h => absurd h List.not_mem_nil
  · have hattempts := h.attempts
    rw [hstats, hcount] at hattempts
    cases hattempts

end QuizBackend.Quiz.Analytics
