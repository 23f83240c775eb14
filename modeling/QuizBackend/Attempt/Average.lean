import QuizBackend.Attempt.Tables
import QuizBackend.Lib.RunningMean

/-!
# The average of a quiz (`quiz_stats.avg_score_percent`)

A completion multiplies the average of its quiz by the number of attempts, adds the score, divides
by the new number and casts to `numeric(5,2)`, so the average is a mean rounded at every step. (The
quotient itself is computed to sixteen places, which no cast notices below 10¹⁴ attempts.) It is the
rounded mean of the scores for the first two attempts and then drifts from it, until
`refreshQuizMetrics` computes the row anew from all attempts, once a day. A new quiz has no row, or the
one of zeros that it is created with.
-/

namespace QuizBackend.Attempt

open Lib Mean

/-- The score a write adds to a quiz, in hundredths of a percent. -/
def Write.score (quizId : Uuid) : Write → Option Nat
  | .completeAttempt _ p => if p.quizId = quizId then some p.scorePercent else none
  | _ => none

/-- The scores of the quiz, in the order of their completions. -/
def completedScores (quizId : Uuid) (ws : List Write) : List Nat := ws.filterMap (·.score quizId)

/-- What a row says of the scores it is kept for. -/
structure MeanKept (row : QuizStatsRow) (scores : List Nat) : Prop where
  totalAttempts : row.totalAttempts = scores.length
  above : row.avgScorePercent * scores.length ≤
    scores.sum + scores.length * scores.length / 4
  below : scores.sum ≤ row.avgScorePercent * scores.length +
    (scores.length - 1) * (scores.length - 1) / 4
  rounded : scores.length ≤ 2 → row.avgScorePercent = roundHalfUp scores.sum scores.length

/-- Count and average of a row. -/
def QuizStatsRow.mean (row : QuizStatsRow) : Mean := ⟨row.totalAttempts, row.avgScorePercent⟩

variable {db : Db} {quizId : Uuid}

theorem mean_upsertQuizStats (stats : Table Uuid QuizStatsRow QuizStatsRow.quizId)
    (p : CompletionParams) :
    ((upsertQuizStats stats p).find? quizId).map (·.mean) =
      if p.quizId = quizId then
        some ((((stats.find? quizId).map (·.mean)).getD zero).add p.scorePercent)
      else (stats.find? quizId).map (·.mean) := by
  unfold upsertQuizStats
  split
  · next inserted h =>
    have hfree : stats.find? p.quizId = none := Table.find?_of_insert? h
    rw [Table.find?_insert? h]
    by_cases hq : p.quizId = quizId
    · subst hq
      -- the first score is kept as it is
      have hfirst : p.scorePercent = roundHalfUp p.scorePercent 1 := by
        refine (roundHalfUp_eq_iff.mpr ?_).symm
        omega
      simpa [hfree, QuizStatsRow.mean, add, zero] using hfirst
    · rw [if_neg hq, if_neg hq]
  · next h =>
    obtain ⟨row, hrow⟩ := Table.find?_of_insert?_none h
    rw [Table.find?_modify]
    by_cases hq : p.quizId = quizId
    · subst hq
      simp only [if_true, hrow, Option.map_some, Option.getD_some]
      rfl
    · rw [if_neg (Ne.symm hq), if_neg hq]

theorem mean_apply (db : Db) (w : Write) :
    ((db.apply w).quizStats.find? quizId).map (·.mean) =
      (w.score quizId).elim ((db.quizStats.find? quizId).map (·.mean)) fun score =>
        some ((((db.quizStats.find? quizId).map (·.mean)).getD zero).add score) := by
  cases w with
  | completeAttempt d p =>
    have hupsert := @mean_upsertQuizStats quizId db.quizStats p
    rw [Write.score]
    by_cases hq : p.quizId = quizId
    · rw [if_pos hq] at hupsert ⊢
      exact hupsert
    · rw [if_neg hq] at hupsert ⊢
      exact hupsert
  | _ => rfl

theorem completedScores_cons (w : Write) (ws : List Write) : completedScores quizId (w :: ws) =
    (w.score quizId).elim (completedScores quizId ws) (· :: completedScores quizId ws) := by
  rw [completedScores, List.filterMap_cons]
  cases w.score quizId <;> rfl

theorem mean_foldl (db : Db) (ws : List Write) :
    ((ws.foldl Db.apply db).quizStats.find? quizId).map (·.mean) =
      if completedScores quizId ws = [] then (db.quizStats.find? quizId).map (·.mean)
      else some ((completedScores quizId ws).foldl add
        (((db.quizStats.find? quizId).map (·.mean)).getD zero)) := by
  induction ws generalizing db with
  | nil => rfl
  | cons w ws ih =>
    rw [List.foldl_cons, ih, mean_apply, completedScores_cons]
    cases w.score quizId with
    | none => rfl
    | some score =>
      simp only [Option.elim_some, Option.getD_some, List.foldl_cons, reduceCtorEq, if_false]
      by_cases hnil : completedScores quizId ws = []
      · rw [if_pos hnil, hnil, List.foldl_nil]
      · rw [if_neg hnil]

/-- The row of a quiz none of whose attempts has been completed, if it has one. -/
def Unplayed (db : Db) (quizId : Uuid) : Prop :=
  ∀ row, db.quizStats.find? quizId = some row → row.totalAttempts = 0 ∧ row.avgScorePercent = 0

theorem mean_of_unplayed (hnew : Unplayed db quizId) {ws : List Write}
    (h : completedScores quizId ws ≠ []) :
    ((ws.foldl Db.apply db).quizStats.find? quizId).map (·.mean) =
      some (meanOf (completedScores quizId ws)) := by
  have hzero : ((db.quizStats.find? quizId).map (·.mean)).getD zero = zero := by
    cases hrow : db.quizStats.find? quizId with
    | none => rfl
    | some row =>
      obtain ⟨hcount, havg⟩ := hnew row hrow
      rw [Option.map_some, Option.getD_some, QuizStatsRow.mean, hcount, havg]
      rfl
  rw [mean_foldl, if_neg h, hzero]
  rfl

/-- **The average over any writes.** A quiz that nobody has completed keeps what row it has until its
first completion, and has one from then on, with the number of its completed attempts and an average
that is the mean of their scores up to the drift of rounding at every step. -/
theorem meanKept_foldl (hnew : Unplayed db quizId) (ws : List Write) :
    (completedScores quizId ws = [] ∧ ((ws.foldl Db.apply db).quizStats.find? quizId).map (·.mean) =
        (db.quizStats.find? quizId).map (·.mean)) ∨
      ∃ row, (ws.foldl Db.apply db).quizStats.find? quizId = some row ∧
        MeanKept row (completedScores quizId ws) := by
  by_cases hnil : completedScores quizId ws = []
  · have hrun := @mean_foldl quizId db ws
    rw [if_pos hnil] at hrun
    exact .inl ⟨hnil, hrun⟩
  · obtain ⟨row, hrow, hmean⟩ := Option.map_eq_some_iff.mp (mean_of_unplayed hnew hnil)
    have hcount : row.totalAttempts = (meanOf (completedScores quizId ws)).count :=
      congrArg Mean.count hmean
    have havg : row.avgScorePercent = (meanOf (completedScores quizId ws)).avg :=
      congrArg Mean.avg hmean
    obtain ⟨habove, hbelow⟩ := Mean.drift (completedScores quizId ws)
    rw [← havg] at habove hbelow
    refine .inr ⟨row, hrow, hcount.trans (meanOf_count _), habove, hbelow, ?_⟩
    intro hshort
    have hpos := List.length_pos_iff.mpr hnil
    -- of one score, or two, the bounds leave one value
    obtain hlen | hlen : (completedScores quizId ws).length = 1 ∨
        (completedScores quizId ws).length = 2 := by omega
    · rw [hlen] at habove hbelow ⊢
      exact (roundHalfUp_eq_iff.mpr (by omega)).symm
    · rw [hlen] at habove hbelow ⊢
      exact (roundHalfUp_eq_iff.mpr (by omega)).symm

/-- **From twenty thousand completed attempts on the average stays what it is**, whatever the scores,
until the row is computed anew. -/
theorem average_frozen {row : QuizStatsRow} (hrow : db.quizStats.find? quizId = some row)
    (hlong : 20000 ≤ row.totalAttempts) (havg : row.avgScorePercent ≤ 10000) {ws : List Write}
    (hrange : ∀ score ∈ completedScores quizId ws, score ≤ 10000) :
    ((ws.foldl Db.apply db).quizStats.find? quizId).map (·.avgScorePercent) =
      some row.avgScorePercent := by
  have hrun := congrArg (Option.map avg) (@mean_foldl quizId db ws)
  rw [Option.map_map] at hrun
  refine hrun.trans ?_
  rw [hrow]
  split
  · rfl
  · exact congrArg some (avg_foldl_of_large (m := row.mean) (b := 10000) hlong havg hrange)

/-! ## Three attempts -/

def scored (scorePercent : Nat) : Write :=
  .completeAttempt ⟨0, 0, "event", "correlation", 0⟩
    { attemptId := 1, scorePercent, correctCount := 0, timeTakenMs := 0, xpEarned := 0, nowIso := 0
      quizId := 2, userId := 3, xpOutbox := none, quizVersionId := 4, totalAnswers := 1 }

/-- A quiz with a row of `totalAttempts` attempts and this average. -/
def withStats (totalAttempts avgScorePercent : Nat) : Db :=
  { Db.initial (Table.empty _) (Table.empty _) with
    quizStats := ⟨[⟨2, totalAttempts, totalAttempts, avgScorePercent, none, 0⟩],
      List.nodup_singleton _⟩ }

/-- The row of zeros and two scores, and the average is their rounded mean. -/
theorem meanKept_of_two : ∃ row, ([scored 5000, scored 3333].foldl Db.apply
    (withStats 0 0)).quizStats.find? 2 = some row ∧ MeanKept row [5000, 3333] := by
  have hnew : Unplayed (withStats 0 0) 2 := by
    rintro row ⟨⟩
    exact ⟨rfl, rfl⟩
  exact (meanKept_foldl hnew [scored 5000, scored 3333]).resolve_left fun h => absurd h.1 (by decide)

/-- Twenty thousand scores of 100, and a hundred of 0 after them. -/
theorem average_frozen_after_best : (((List.replicate 100 (scored 0)).foldl Db.apply
    (withStats 20000 10000)).quizStats.find? 2).map (·.avgScorePercent) = some 10000 := by
  have hscores : completedScores 2 (List.replicate 100 (scored 0)) = List.replicate 100 0 :=
    List.filterMap_replicate_of_some rfl
  refine @average_frozen _ _ ⟨2, 20000, 20000, 10000, none, 0⟩ rfl (by decide) (by decide) _ ?_
  intro score hmem
  rw [hscores] at hmem
  exact (List.mem_replicate.mp hmem).2.trans_le (Nat.zero_le _)

/-- 0.01, 0 and 0 average 0.01; their mean is 0.00. -/
theorem three_scores_drift :
    (([scored 1, scored 0, scored 0].foldl Db.apply
        (Db.initial (Table.empty _) (Table.empty _))).quizStats.find? 2).map (·.avgScorePercent) =
      some 1 ∧
    roundHalfUp (1 + 0 + 0) 3 = 0 := by
  decide +kernel

end QuizBackend.Attempt
