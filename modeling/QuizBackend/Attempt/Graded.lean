import QuizBackend.Attempt.Review
import QuizBackend.Attempt.Invariant

/-!
# Reviews along runs

Authoring and attempts on one database. The statements of both modules interleave; a statement of the
attempt module sees the quizzes as they are at that moment, not a catalog that stands still.
`submitAnswer` reads the attempt, the question and the option in one step here: questions and options
are only added, so the last of the three reads decides, and the transaction asks for the status of the
attempt again.

Whatever is answered is answered in a way that can be graded: questions come with exactly one correct
option and a position of their own, and an answer is of a question of its attempt's version and selects
one of its options.
-/

namespace QuizBackend.Attempt.Graded

open Lib Table
open Quiz (QuizQuestionRow QuizAnswerOptionRow)

/-! ## The system -/

structure System where
  quizzes : Quiz.State
  attempts : Attempt.State

inductive Action
  | authoring (a : Quiz.Action)
  | attempting (tournamentExists : Uuid → Bool) (a : Attempt.Action)

def step (s : System) : Action → Option System
  | .authoring a => (Quiz.step s.quizzes a).map fun quizzes => { s with quizzes }
  | .attempting tournamentExists a =>
    (Attempt.step (catalog s.quizzes.db tournamentExists) s.attempts a).map fun attempts =>
      { s with attempts }

def System.initial (users : Table Uuid Streak.UserRow Streak.UserRow.userId)
    (roundParticipants : Table (Uuid × Uuid) RoundParticipantRow RoundParticipantRow.key) : System :=
  ⟨.initial, .initial users roundParticipants⟩

/-- `getAttemptReview` of an attempt, without its guards: the answers, and the questions of its
version. -/
def System.review (s : System) (attempt : AttemptDetailRow) : AttemptReviewResponse :=
  toAttemptReviewResponse attempt (s.attempts.db.getAttemptAnswersByAttemptId attempt.attemptId)
    (getQuestionsByVersionId s.quizzes.db attempt.quizVersionId)

/-! ## The questions -/

/-- What authoring guarantees of the questions and their options. -/
structure WellFormed (quiz : Quiz.Db) : Prop where
  position : ∀ q ∈ quiz.quizQuestions.rows, ∀ q' ∈ quiz.quizQuestions.rows,
    q.quizVersionId = q'.quizVersionId → q.position = q'.position → q = q'
  oneCorrect : ∀ q ∈ quiz.quizQuestions.rows, (quiz.optionsOf q.questionId).countP (·.isCorrect) = 1
  referenced : ∀ option ∈ quiz.quizAnswerOptions.rows,
    ∃ q ∈ quiz.quizQuestions.rows, q.questionId = option.questionId

theorem wellFormed_empty : WellFormed .empty where
  position := by
    intro q hq
    cases hq
  oneCorrect := by
    intro q hq
    cases hq
  referenced := by
    intro option hoption
    cases hoption

section Quiz

variable {quiz : Quiz.Db} {w : Quiz.Write}

theorem optionsOf_new (hq : WellFormed quiz) {question : QuizQuestionRow}
    {options : List QuizAnswerOptionRow}
    (h : Quiz.Licensed quiz (.createQuestionWithOptions question options)) :
    (quiz.apply (.createQuestionWithOptions question options)).optionsOf question.questionId
      = options := by
  have hold : quiz.quizAnswerOptions.rows.filter
      (fun row => row.questionId = question.questionId) = [] := by
    refine List.filter_eq_nil_iff.mpr fun option hoption hid => ?_
    obtain ⟨q, hqmem, hqid⟩ := hq.referenced option hoption
    refine find?_eq_none_iff.mp h.1 (List.mem_map.mpr ⟨q, hqmem, ?_⟩)
    exact hqid.trans (of_decide_eq_true hid)
  have hnew : options.filter (fun row => row.questionId = question.questionId) = options :=
    List.filter_eq_self.mpr fun option hoption => decide_eq_true (h.2.2.2.2.1 option hoption)
  rw [Quiz.Db.optionsOf, (Quiz.rows_apply_question h).2, List.filter_append, hold, hnew,
    List.nil_append]

theorem WellFormed.question (hq : WellFormed quiz) {question : QuizQuestionRow}
    {options : List QuizAnswerOptionRow}
    (h : Quiz.Licensed quiz (.createQuestionWithOptions question options)) :
    WellFormed (quiz.apply (.createQuestionWithOptions question options)) where
  position := by
    -- the position of the new question was free
    have hfree : ∀ q ∈ quiz.quizQuestions.rows, q.quizVersionId = question.quizVersionId →
        q.position ≠ question.position := h.2.2.1
    rw [(Quiz.rows_apply_question h).1]
    intro q hqmem q' hqmem' hversion hposition
    rcases List.mem_append.mp hqmem with hold | hnew
    · rcases List.mem_append.mp hqmem' with hold' | hnew'
      · exact hq.position q hold q' hold' hversion hposition
      · cases List.mem_singleton.mp hnew'
        exact absurd hposition (hfree q hold hversion)
    · cases List.mem_singleton.mp hnew
      rcases List.mem_append.mp hqmem' with hold' | hnew'
      · exact absurd hposition.symm (hfree q' hold' hversion.symm)
      · exact (List.mem_singleton.mp hnew').symm
  oneCorrect := by
    rw [(Quiz.rows_apply_question h).1]
    intro q hqmem
    rcases List.mem_append.mp hqmem with hold | hnew
    · have hne : q.questionId ≠ question.questionId := fun hid =>
        find?_eq_none_iff.mp h.1 (List.mem_map.mpr ⟨q, hold, hid⟩)
      rw [Quiz.optionsOf_apply h hne]
      exact hq.oneCorrect q hold
    · cases List.mem_singleton.mp hnew
      rw [optionsOf_new hq h]
      exact h.2.2.2.2.2
  referenced := by
    rw [(Quiz.rows_apply_question h).1, (Quiz.rows_apply_question h).2]
    intro option hoption
    rcases List.mem_append.mp hoption with hold | hnew
    · obtain ⟨q, hqmem, hid⟩ := hq.referenced option hold
      exact ⟨q, List.mem_append_left _ hqmem, hid⟩
    · exact ⟨question, List.mem_append_right _ (List.mem_singleton_self _),
        (h.2.2.2.2.1 option hnew).symm⟩

theorem WellFormed.apply (hq : WellFormed quiz) (h : Quiz.Licensed quiz w) :
    WellFormed (quiz.apply w) := by
  cases hw : w.newQuestion with
  | none =>
    obtain ⟨hquestions, hoptions⟩ : (quiz.apply w).quizQuestions = quiz.quizQuestions ∧
      (quiz.apply w).quizAnswerOptions = quiz.quizAnswerOptions := Quiz.questions_apply_of_none hw
    refine ⟨?_, ?_, ?_⟩
    · rw [hquestions]
      exact hq.position
    · simp only [Quiz.Db.optionsOf, hquestions, hoptions]
      exact hq.oneCorrect
    · rw [hquestions, hoptions]
      exact hq.referenced
  | some new =>
    cases w with
    | createQuestionWithOptions question options => exact hq.question h
    | _ => cases hw

end Quiz

/-! ## The answers -/

/-- The answer is to a question of the attempt's version, with one of its options. -/
def AnswerOk (quiz : Quiz.Db) (db : Db) (attemptId questionId : Uuid) (selected : Option Uuid) :
    Prop :=
  ∃ userId question, db.owner attemptId = some (userId, question.quizVersionId) ∧
    question ∈ quiz.quizQuestions.rows ∧ question.questionId = questionId ∧
    ∀ optionId, selected = some optionId →
      ∃ option ∈ quiz.quizAnswerOptions.rows, option.optionId = optionId ∧
        option.questionId = questionId

def Fits (quiz : Quiz.Db) (db : Db) : Request → Prop
  | .submitTx p | .submitInsert p => AnswerOk quiz db p.attemptId p.questionId p.selectedOptionId
  | _ => True

section Answers

variable {quiz : Quiz.Db} {db : Db} {attemptId questionId : Uuid} {selected : Option Uuid}

theorem AnswerOk.authoring {w : Quiz.Write} (h : AnswerOk quiz db attemptId questionId selected)
    (hw : Quiz.Licensed quiz w) : AnswerOk (quiz.apply w) db attemptId questionId selected := by
  obtain ⟨userId, question, howner, hquestion, hid, hselected⟩ := h
  obtain ⟨hquestions, hoptions⟩ := Quiz.mem_rows_apply_question hw
  refine ⟨userId, question, howner, hquestions question hquestion, hid, ?_⟩
  intro optionId ho
  obtain ⟨option, hoption, hoptionId⟩ := hselected optionId ho
  exact ⟨option, hoptions option hoption, hoptionId⟩

theorem AnswerOk.attempting {w : Write} (h : AnswerOk quiz db attemptId questionId selected)
    (hw : w.Fresh db) : AnswerOk quiz (db.apply w) attemptId questionId selected := by
  obtain ⟨userId, question, howner, hrest⟩ := h
  exact ⟨userId, question, owner_apply hw howner, hrest⟩

theorem Fits.authoring {w : Quiz.Write} {r : Request} (h : Fits quiz db r)
    (hw : Quiz.Licensed quiz w) : Fits (quiz.apply w) db r := by
  cases r with
  | submitTx p => exact AnswerOk.authoring h hw
  | submitInsert p => exact AnswerOk.authoring h hw
  | _ => trivial

theorem Fits.attempting {w : Write} {r : Request} (h : Fits quiz db r) (hw : w.Fresh db) :
    Fits quiz (db.apply w) r := by
  cases r with
  | submitTx p => exact AnswerOk.attempting h hw
  | submitInsert p => exact AnswerOk.attempting h hw
  | _ => trivial

theorem fits_of_blank {r : Request} (h : r.Blank) : Fits quiz db r := by
  rcases h with hnew | rfl
  · cases r with
    | submitTx p => cases hnew
    | submitInsert p => cases hnew
    | _ => trivial
  · trivial

theorem fits_submitAnswer (tournamentExists : Uuid → Bool) (user : JwtPayload) (p : AnswerParams) :
    Fits quiz db (submitAnswer (catalog quiz tournamentExists) db user p) := by
  unfold submitAnswer
  split
  · trivial
  · rename_i attempt hattempt
    split
    · trivial
    · rename_i hquestion
      rw [ne_eq, not_not] at hquestion
      obtain ⟨question, hfind, hversion⟩ := Option.map_eq_some_iff.mp hquestion
      have howner : db.owner p.attemptId = some (attempt.userId, question.quizVersionId) := by
        rw [hversion, Db.owner]
        unfold activeAttemptOf at hattempt
        split at hattempt
        · cases hattempt
        · rename_i row hrow
          split at hattempt
          · cases hattempt
          · split at hattempt
            · cases hattempt
            · cases hattempt
              rw [hrow]
              rfl
      have hok : ∀ selected, (∀ optionId, selected = some optionId →
          ∃ option ∈ quiz.quizAnswerOptions.rows, option.optionId = optionId ∧
            option.questionId = p.questionId) →
          AnswerOk quiz db p.attemptId p.questionId selected := by
        intro selected hselected
        exact ⟨attempt.userId, question, howner, mem_of_find? hfind,
          key_of_find? hfind, hselected⟩
      cases hselected : p.selectedOptionId with
      | none =>
        simp only [Fits, hselected]
        exact hok none fun _ h => by cases h
      | some optionId =>
        dsimp only
        split
        · rename_i hoption
          obtain ⟨option, hfindOption, hof⟩ := Option.map_eq_some_iff.mp hoption
          obtain ⟨row, hrow, rfl⟩ := Option.map_eq_some_iff.mp hfindOption
          simp only [Fits, hselected]
          refine hok (some optionId) ?_
          rintro _ ⟨⟩
          exact ⟨row, mem_of_find? hrow, key_of_find? hrow, hof⟩
        · trivial

theorem fits_next {tournamentExists : Uuid → Bool} {locked : Uuid → Bool} {d : Drawn} {r : Request}
    {g : Progress} (h : Fits quiz db r)
    (hnext : r.next (catalog quiz tournamentExists) db locked d = some g) :
    Fits quiz db g.request := by
  cases r with
  | start quizId user contextType contextRefId nowIso =>
    cases hnext
    simp only [Progress.goto, startAttempt]
    repeat' split
    all_goals trivial
  | submit user p =>
    cases hnext
    exact fits_submitAnswer tournamentExists user p
  | submitTx p =>
    simp only [Request.next] at hnext
    repeat' split at hnext
    all_goals
      cases hnext
      first | exact h | trivial
  | withdraw attemptId questionId user =>
    cases hnext
    simp only [Progress.goto, withdrawAnswer]
    split <;> trivial
  | abandon attemptId user nowIso =>
    cases hnext
    simp only [Progress.goto, abandonAttempt]
    split <;> trivial
  | complete attemptId user nowIso =>
    cases hnext
    simp only [Progress.goto, completeAttempt]
    split <;> trivial
  | done | failed _ => cases hnext
  | withdrawDelete | abandonCommit | completeScore | completeTx =>
    cases hnext
    trivial
  | _ =>
    simp only [Request.next] at hnext
    repeat' split at hnext
    all_goals
      cases hnext
      try trivial

theorem mem_answers_apply {w : Write} {a : AttemptAnswerRow}
    (h : a ∈ (db.apply w).quizAttemptAnswers.rows) :
    a ∈ db.quizAttemptAnswers.rows ∨ ∃ d p, w = .submitAnswer d p ∧ a = p.row d.id := by
  cases w with
  | submitAnswer d p =>
    simp only [Db.apply, Db.submitAnswer] at h
    cases hinsert : db.quizAttemptAnswers.insert? (p.row d.id) with
    | none =>
      rw [hinsert] at h
      exact .inl h
    | some t =>
      rw [hinsert, Option.getD_some, rows_of_insert? hinsert, List.mem_append] at h
      rcases h with hold | hnew
      · exact .inl hold
      · exact .inr ⟨d, p, rfl, List.mem_singleton.mp hnew⟩
  | deleteAnswer attemptId questionId => exact .inl (mem_erase.mp h).1
  | _ => exact .inl h

end Answers

/-! ## Runs -/

/-- Quizzes and attempts are consistent, and with each other. -/
structure Invariant (s : System) : Prop where
  authoring : Quiz.Inv s.quizzes
  questions : WellFormed s.quizzes.db
  answers : ∀ a ∈ s.attempts.db.quizAttemptAnswers.rows,
    AnswerOk s.quizzes.db s.attempts.db a.attemptId a.questionId a.selectedOptionId
  requests : ∀ r ∈ s.attempts.requests, Fits s.quizzes.db s.attempts.db r

theorem Invariant.initial (users : Table Uuid Streak.UserRow Streak.UserRow.userId)
    (roundParticipants : Table (Uuid × Uuid) RoundParticipantRow RoundParticipantRow.key) :
    Invariant (.initial users roundParticipants) where
  authoring := Quiz.inv_initial
  questions := wellFormed_empty
  answers := by
    intro a ha
    cases ha
  requests := by
    intro r hr
    cases hr

section Steps

variable {s s' : System}

theorem Invariant.authoringStep (h : Invariant s) {a : Quiz.Action} {quizzes : Quiz.State}
    (hstep : Quiz.step s.quizzes a = some quizzes) : Invariant { s with quizzes } := by
  have hlicensed := Quiz.licensed_writes h.authoring hstep
  have hdb : quizzes.db = s.quizzes.db.apply (s.quizzes.writes a) := Quiz.db_of_step hstep
  refine ⟨h.authoring.step hstep, ?_, ?_, ?_⟩
  · rw [hdb]
    exact h.questions.apply hlicensed
  · intro answer ha
    rw [hdb]
    exact (h.answers answer ha).authoring hlicensed
  · intro r hr
    rw [hdb]
    exact (h.requests r hr).authoring hlicensed

theorem Invariant.attemptingStep (h : Invariant s) {tournamentExists : Uuid → Bool}
    {a : Attempt.Action} {attempts : Attempt.State}
    (hstep : Attempt.step (catalog s.quizzes.db tournamentExists) s.attempts a = some attempts) :
    Invariant { s with attempts } := by
  obtain ⟨hdb, es, -, hlicensed⟩ := step_licensed hstep
  have hfresh := hlicensed.fresh
  refine ⟨h.authoring, h.questions, ?_, ?_⟩
  · intro answer ha
    show AnswerOk s.quizzes.db attempts.db _ _ _
    rw [hdb]
    rw [show (System.mk s.quizzes attempts).attempts.db = _ from hdb] at ha
    refine AnswerOk.attempting ?_ hfresh
    rcases mem_answers_apply ha with hold | ⟨d, p, hw, rfl⟩
    · exact h.answers answer hold
    · -- the request that inserts it knows what it inserts
      rw [hw] at hlicensed
      cases hlicensed with
      | submitAnswer request free => exact h.requests _ (List.mem_of_getElem? request)
  · intro r hr
    show Fits s.quizzes.db attempts.db r
    rw [hdb]
    refine Fits.attempting ?_ hfresh
    obtain ⟨j, hj⟩ := List.mem_iff_getElem?.mp hr
    rcases request_step hstep hj with ⟨hold, -⟩ | hblank | ⟨d, r₀, g, -, hr₀, hg, -, rfl⟩
    · exact h.requests r (List.mem_of_getElem? hold)
    · exact fits_of_blank hblank
    · exact fits_next (h.requests r₀ (List.mem_of_getElem? hr₀)) hg

theorem Invariant.step (h : Invariant s) {a : Action} (hstep : step s a = some s') :
    Invariant s' := by
  cases a with
  | authoring a =>
    obtain ⟨quizzes, hq, rfl⟩ := Option.map_eq_some_iff.mp hstep
    exact h.authoringStep hq
  | attempting tournamentExists a =>
    obtain ⟨attempts, ha, rfl⟩ := Option.map_eq_some_iff.mp hstep
    exact h.attemptingStep ha

theorem nodup_answersOf (db : Db) (attemptId : Uuid) :
    ((db.answersOf attemptId).map (·.questionId)).Nodup := by
  refine List.Nodup.of_map (fun questionId => (attemptId, questionId)) ?_
  have hkeys : ((db.answersOf attemptId).map AttemptAnswerRow.key).Nodup :=
    db.quizAttemptAnswers.nodup.sublist (List.filter_sublist.map _)
  rw [List.map_map]
  refine (List.map_congr_left fun a ha => ?_) ▸ hkeys
  have hattempt : a.attemptId = attemptId := of_decide_eq_true (List.mem_filter.mp ha).2
  rw [Function.comp_apply, AttemptAnswerRow.key, hattempt]

/-- **The answers of every attempt can be graded.** -/
theorem Invariant.gradable (h : Invariant s) {row : AttemptRow}
    (hrow : row ∈ s.attempts.db.quizAttempts.rows) :
    Gradable s.quizzes.db row.quizVersionId
      (s.attempts.db.getAttemptAnswersByAttemptId row.attemptId) := by
  have hperm : (s.attempts.db.getAttemptAnswersByAttemptId row.attemptId).Perm
      (s.attempts.db.answersOf row.attemptId) := List.perm_insertionSort _ _
  have hok : ∀ a ∈ s.attempts.db.getAttemptAnswersByAttemptId row.attemptId,
      a.attemptId = row.attemptId ∧
        AnswerOk s.quizzes.db s.attempts.db row.attemptId a.questionId a.selectedOptionId := by
    intro a ha
    obtain ⟨hmem, hid⟩ := List.mem_filter.mp (hperm.subset ha)
    have hattempt : a.attemptId = row.attemptId := of_decide_eq_true hid
    exact ⟨hattempt, hattempt ▸ h.answers a hmem⟩
  have howner : s.attempts.db.owner row.attemptId = some (row.userId, row.quizVersionId) := by
    rw [Db.owner, find?_of_mem hrow]
    rfl
  refine ⟨?_, ?_, ?_, ?_, ?_⟩
  · intro q hq q' hq' hposition
    obtain ⟨hqmem, hqv⟩ := List.mem_filter.mp hq
    obtain ⟨hqmem', hqv'⟩ := List.mem_filter.mp hq'
    refine h.questions.position q hqmem q' hqmem' ?_ hposition
    exact (of_decide_eq_true hqv).trans (of_decide_eq_true hqv').symm
  · intro q hq
    exact h.questions.oneCorrect q (List.mem_filter.mp hq).1
  · exact (hperm.map _).nodup_iff.mpr (nodup_answersOf s.attempts.db row.attemptId)
  · intro a ha
    obtain ⟨userId, question, hof, hquestion, hid, -⟩ := (hok a ha).2
    rw [howner] at hof
    have hversion : question.quizVersionId = row.quizVersionId :=
      (congrArg Prod.snd (Option.some.inj hof)).symm
    exact ⟨question, List.mem_filter.mpr ⟨hquestion, decide_eq_true hversion⟩, hid⟩
  · intro a ha optionId hselected
    obtain ⟨userId, question, -, -, -, hoptions⟩ := (hok a ha).2
    obtain ⟨option, hoption, rfl, hof⟩ := hoptions optionId hselected
    exact ⟨option, find?_of_mem hoption, hof⟩

end Steps

/-- **Review and scoring agree**, in every state and for every attempt. -/
theorem review_agreesWith_scoring (users : Table Uuid Streak.UserRow Streak.UserRow.userId)
    (roundParticipants : Table (Uuid × Uuid) RoundParticipantRow RoundParticipantRow.key)
    (as : List Action) (s : System)
    (h : exec step (.initial users roundParticipants) as = some s)
    (attempt : AttemptDetailRow) (hattempt : attempt.toAttemptRow ∈ s.attempts.db.quizAttempts.rows)
    (tournamentExists : Uuid → Bool) :
    AgreesWith (s.review attempt) s.quizzes.db attempt.quizVersionId
      (s.attempts.db.getAttemptAnswersByAttemptId attempt.attemptId)
      (s.attempts.db.getAttemptAnswerScoringData (catalog s.quizzes.db tournamentExists)
        attempt.attemptId) := by
  have hinv : Invariant s := exec_invariant (fun _ _ _ hi hstep => hi.step hstep) h
    (Invariant.initial users roundParticipants)
  have hagrees := agreesWith_of_gradable (hinv.gradable hattempt) attempt tournamentExists
  -- the order of the answers does not matter to the score
  have hperm : (s.attempts.db.getAttemptAnswersByAttemptId attempt.attemptId).Perm
      (s.attempts.db.answersOf attempt.attemptId) := List.perm_insertionSort _ _
  have hcount := hagrees.correctCount
  rw [correctCount_scoringData, hperm.countP_eq, ← correctCount_scoringData _ tournamentExists]
    at hcount
  exact ⟨hcount, hagrees.unmarked, hagrees.questions, hagrees.ordered⟩

/-! A player sits the quiz of `Quiz.publishesQuiz`: the first question right, the second one wrong, the
third one skipped. Question 11 has the options 22, which is correct, and 23. -/

def answering (questionId : Uuid) (selectedOptionId : Option Uuid) : Request :=
  .submit player ⟨attemptNo 0, questionId, selectedOptionId, 6, none⟩

def sitting : List Action :=
  Quiz.publishesQuiz.map .authoring ++
  (.arrive (.start 1 player .solo none 5) :: runs 0 2 0 ++
   .arrive (answering 12 (some 25)) :: runs 1 3 0 ++
   .arrive (answering 11 (some 22)) :: runs 2 3 0 ++
   .arrive (answering 13 none) :: runs 3 3 0).map (.attempting fun _ => false)

def sat : AttemptDetailRow :=
  { StartParams.row ⟨player.sub, 1, .solo, none, 5⟩ (attemptNo 0) with
    quizId := 1, quizTitle := "", quizSlug := "", versionNumber := 1, difficulty := .easy
    passingScorePercent := 50 }

def start : System := .initial lobby.db.users lobby.db.roundParticipants

def System.marks (s : System) : List (Int × Option Bool) × ScoringData :=
  ((s.review sat).questions.map fun q => (q.position, q.isCorrect),
    s.attempts.db.getAttemptAnswerScoringData (catalog s.quizzes.db fun _ => false) (attemptNo 0))

theorem review_agreesWith_scoring_sitting : ∃ s,
    exec step start sitting = some s ∧
      s.marks = ([(1, some true), (2, some false), (3, none), (4, none), (5, none)], ⟨2, 1⟩) ∧
      AgreesWith (s.review sat) s.quizzes.db 1
        (s.attempts.db.getAttemptAnswersByAttemptId (attemptNo 0))
        (s.attempts.db.getAttemptAnswerScoringData (catalog s.quizzes.db fun _ => false)
          (attemptNo 0)) := by
  refine exists_of_read (fun s => (s.marks, s.attempts.db.quizAttempts.rows))
    (([(1, some true), (2, some false), (3, none), (4, none), (5, none)], ⟨2, 1⟩), [sat.toAttemptRow])
    (by decide +kernel) fun s hs hread => ?_
  obtain ⟨hmarks, hrows⟩ := Prod.mk.inj hread
  have hsat : sat.toAttemptRow ∈ s.attempts.db.quizAttempts.rows :=
    hrows ▸ List.mem_singleton_self _
  exact ⟨hmarks, review_agreesWith_scoring _ _ sitting s hs sat hsat fun _ => false⟩

end QuizBackend.Attempt.Graded
