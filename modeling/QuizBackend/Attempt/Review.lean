import QuizBackend.Quiz.Immutability
import QuizBackend.Lib.Grouping
import Mathlib.Data.List.Sort
import Mathlib.Data.Prod.Lex
import Mathlib.Algebra.Order.Ring.Int

/-!
# The review of an attempt (`attempt-response.mapper.ts`)

Answers are graded twice. `getAttemptAnswerScoringData` joins them with the options they select and
counts the correct ones; `toAttemptReviewResponse` puts the questions of the version together with
their options and compares each answer with the first correct option of its question. The comment
calls it *the same source of truth*: it is, for answers that select an option of their question, if
every question has exactly one correct option (`Gradable`). That runs lead to nothing else is shown in
`Attempt.Graded`.

`explanation`, `topicTags` and `difficulty` of a reviewed question are always `null` and left out.
-/

namespace QuizBackend.Attempt

open Lib
open Quiz (QuizQuestionRow QuizAnswerOptionRow QuizDifficulty)

/-! ## Reads -/

def Db.getAttemptAnswersByAttemptId (db : Db) (attemptId : Uuid) : List AttemptAnswerRow :=
  (db.answersOf attemptId).insertionSort fun a b => a.answeredAt ≤ b.answeredAt

/-- A row of a question with one of its options; the join fills all columns of the option or none. -/
abbrev QuestionJoinRow := QuizQuestionRow × Option QuizAnswerOptionRow

/-- `ORDER BY quiz_questions.position, quiz_answer_options.position`, `NULL` last. -/
def QuestionJoinRow.sortKey (row : QuestionJoinRow) : Int ×ₗ Bool ×ₗ Int :=
  toLex (row.1.position, toLex (row.2.isNone, row.2.elim 0 (·.position)))

def getQuestionsByVersionId (db : Quiz.Db) (quizVersionId : Uuid) : List QuestionJoinRow :=
  (leftJoin (fun question => db.optionsOf question.questionId)
    (db.questionsOf quizVersionId)).insertionSort fun a b => a.sortKey ≤ b.sortKey

/-! ## The mapper -/

structure AttemptDetailRow extends AttemptRow where
  quizId : Uuid
  quizTitle : String
  quizSlug : String
  versionNumber : Int
  difficulty : QuizDifficulty
  passingScorePercent : Int

structure AttemptReviewAnswerOption where
  optionId : Uuid
  position : Int
  value : String
  isCorrect : Bool

structure AttemptReviewQuestion where
  questionId : Uuid
  position : Int
  questionText : String
  imageUrl : Option String
  selectedOptionId : Option Uuid
  isCorrect : Option Bool
  timeTakenMs : Option Int
  answeredAt : Int
  answerOptions : List AttemptReviewAnswerOption

structure AttemptReviewResponse where
  attemptId : Uuid
  status : AttemptStatus
  quizId : Uuid
  quizTitle : String
  quizSlug : String
  versionNumber : Int
  difficulty : QuizDifficulty
  passingScorePercent : Int
  scorePercent : Option Nat
  correctCount : Option Nat
  totalQuestions : Nat
  timeTakenMs : Option Int
  xpEarned : Int
  finishedAt : Int
  questions : List AttemptReviewQuestion

/-- The groups of rows with one question, in the order of a `Map`. -/
def hydrateQuestions (rows : List QuestionJoinRow) :
    List (QuizQuestionRow × List QuizAnswerOptionRow) :=
  group (·.questionId) rows

/-- `answerByQuestion.get(questionId)`: of two answers to a question the later one is in the map. -/
def answerByQuestion (answers : List AttemptAnswerRow) (questionId : Uuid) : Option AttemptAnswerRow :=
  answers.reverse.find? fun a => a.questionId = questionId

/-- `correctOption?.optionId === userAnswer.selectedOptionId`, if an option is selected. -/
def isCorrectFor (answerOptions : List QuizAnswerOptionRow) (userAnswer : Option AttemptAnswerRow) :
    Option Bool :=
  (userAnswer.bind (·.selectedOptionId)).map fun selectedOptionId =>
    (answerOptions.find? (·.isCorrect)).map (·.optionId) = some selectedOptionId

def reviewQuestion (answers : List AttemptAnswerRow)
    (q : QuizQuestionRow × List QuizAnswerOptionRow) : AttemptReviewQuestion :=
  let userAnswer := answerByQuestion answers q.1.questionId
  { questionId := q.1.questionId, position := q.1.position, questionText := q.1.questionText
    imageUrl := q.1.imageUrl, selectedOptionId := userAnswer.bind (·.selectedOptionId)
    isCorrect := isCorrectFor q.2 userAnswer, timeTakenMs := userAnswer.bind (·.timeTakenMs)
    answeredAt := (userAnswer.map (·.answeredAt)).getD 0
    answerOptions := q.2.map fun o => ⟨o.optionId, o.position, o.value, o.isCorrect⟩ }

def toAttemptReviewResponse (attempt : AttemptDetailRow) (answers : List AttemptAnswerRow)
    (questionRows : List QuestionJoinRow) : AttemptReviewResponse :=
  let questions := (hydrateQuestions questionRows).map (reviewQuestion answers)
  { attemptId := attempt.attemptId, status := .completed, quizId := attempt.quizId
    quizTitle := attempt.quizTitle, quizSlug := attempt.quizSlug
    versionNumber := attempt.versionNumber, difficulty := attempt.difficulty
    passingScorePercent := attempt.passingScorePercent, scorePercent := attempt.scorePercent
    correctCount := attempt.correctCount, totalQuestions := questions.length
    timeTakenMs := attempt.timeTakenMs, xpEarned := attempt.xpEarned
    finishedAt := attempt.finishedAt.getD 0, questions }

/-! ## Statements -/

/-- What quizzes and versions say to the attempt module; tournaments are none of their business. -/
def catalog (quiz : Quiz.Db) (tournamentExists : Uuid → Bool) : Catalog where
  publishedVersionId quizId := (quiz.quizzes.find? quizId).bind fun row =>
    if row.flags.isDeleted || row.flags.isHidden then none else row.publishedVersionId
  version quizVersionId := (quiz.quizVersions.find? quizVersionId).map fun row =>
    ⟨row.quizId, row.settings.passingScorePercent, row.settings.rewardXp⟩
  quizDeleted quizId := (quiz.quizzes.find? quizId).all (·.flags.isDeleted)
  questionCount := quiz.countQuestionsByVersionId
  questionVersionId questionId := (quiz.quizQuestions.find? questionId).map (·.quizVersionId)
  option optionId := (quiz.quizAnswerOptions.find? optionId).map fun row =>
    ⟨row.questionId, row.isCorrect⟩
  tournamentExists

structure Gradable (quiz : Quiz.Db) (quizVersionId : Uuid) (answers : List AttemptAnswerRow) : Prop
    where
  position : ∀ q ∈ quiz.questionsOf quizVersionId, ∀ q' ∈ quiz.questionsOf quizVersionId,
    q.position = q'.position → q = q'
  oneCorrect : ∀ q ∈ quiz.questionsOf quizVersionId,
    (quiz.optionsOf q.questionId).countP (·.isCorrect) = 1
  nodup : (answers.map (·.questionId)).Nodup
  question : ∀ a ∈ answers, ∃ q ∈ quiz.questionsOf quizVersionId, q.questionId = a.questionId
  selected : ∀ a ∈ answers, ∀ optionId, a.selectedOptionId = some optionId →
    ∃ option, quiz.quizAnswerOptions.find? optionId = some option ∧
      option.questionId = a.questionId

/-- What the review shows is what the scoring counted. -/
structure AgreesWith (response : AttemptReviewResponse) (quiz : Quiz.Db) (quizVersionId : Uuid)
    (answers : List AttemptAnswerRow) (scoring : ScoringData) : Prop where
  correctCount :
    response.questions.countP (fun q => q.isCorrect = some true) = scoring.correctCount
  /-- unanswered and skipped questions, and no others, are marked `null` -/
  unmarked : ∀ q ∈ response.questions, q.isCorrect = none ↔
    ∀ a ∈ answers, a.questionId = q.questionId → a.selectedOptionId = none
  questions : (response.questions.map fun q => (q.questionId, q.position, q.questionText, q.imageUrl))
    |>.Perm ((quiz.questionsOf quizVersionId).map fun q =>
      (q.questionId, q.position, q.questionText, q.imageUrl))
  ordered : response.questions.Pairwise fun q q' => q.position < q'.position

/-! ## The questions -/

section Questions

variable {quiz : Quiz.Db} {quizVersionId : Uuid} {answers : List AttemptAnswerRow}

section

variable (quiz : Quiz.Db)

section

variable (quizVersionId : Uuid)

theorem nodup_questionsOf :
    ((quiz.questionsOf quizVersionId).map (·.questionId)).Nodup :=
  quiz.quizQuestions.nodup.sublist (List.filter_sublist.map _)

theorem getQuestionsByVersionId_perm :
    (getQuestionsByVersionId quiz quizVersionId).Perm
      (leftJoin (fun question => quiz.optionsOf question.questionId)
        (quiz.questionsOf quizVersionId)) :=
  List.perm_insertionSort _ _

theorem hydrateQuestions_perm :
    ((hydrateQuestions (getQuestionsByVersionId quiz quizVersionId)).map Prod.fst).Perm
        (quiz.questionsOf quizVersionId) ∧
      ∀ g ∈ hydrateQuestions (getQuestionsByVersionId quiz quizVersionId),
        g.2.Perm (quiz.optionsOf g.1.questionId) :=
  group_perm (getQuestionsByVersionId_perm quiz quizVersionId) (nodup_questionsOf quiz quizVersionId)

theorem getQuestionsByVersionId_sorted :
    ((getQuestionsByVersionId quiz quizVersionId).map Prod.fst).Pairwise
      fun q q' => q.position ≤ q'.position := by
  let r : QuestionJoinRow → QuestionJoinRow → Prop := fun a b => a.sortKey ≤ b.sortKey
  have htotal : Std.Total r := ⟨fun a b => le_total a.sortKey b.sortKey⟩
  have htrans : IsTrans _ r := ⟨fun _ _ _ => le_trans⟩
  have hsorted : (getQuestionsByVersionId quiz quizVersionId).Pairwise r :=
    List.pairwise_insertionSort r _
  refine List.pairwise_map.mpr (hsorted.imp ?_)
  intro a b hab
  rcases (Prod.Lex.le_iff ..).mp hab with hlt | ⟨heq, -⟩
  · exact Int.le_of_lt hlt
  · exact Int.le_of_eq heq

end

end

theorem hydrateQuestions_ordered (h : Gradable quiz quizVersionId answers) :
    ((hydrateQuestions (getQuestionsByVersionId quiz quizVersionId)).map Prod.fst).Pairwise
      fun q q' => q.position < q'.position := by
  have hperm := (hydrateQuestions_perm quiz quizVersionId).1
  have hle : ((hydrateQuestions (getQuestionsByVersionId quiz quizVersionId)).map Prod.fst).Pairwise
      fun q q' => q.position ≤ q'.position :=
    (getQuestionsByVersionId_sorted quiz quizVersionId).sublist group_sublist
  have hne := hperm.nodup_iff.mpr (nodup_questionsOf quiz quizVersionId).of_map
  refine (hle.and hne).imp_of_mem ?_
  intro q q' hq hq' hqq'
  refine lt_of_le_of_ne hqq'.1 fun heq => hqq'.2 ?_
  exact h.position q (hperm.subset hq) q' (hperm.subset hq') heq

/-! ## The marks -/

theorem answerByQuestion_eq_some_iff (h : (answers.map (·.questionId)).Nodup) {questionId : Uuid}
    {a : AttemptAnswerRow} :
    answerByQuestion answers questionId = some a ↔ a ∈ answers ∧ a.questionId = questionId := by
  have hmem : ∀ a, answerByQuestion answers questionId = some a →
      a ∈ answers ∧ a.questionId = questionId := by
    intro a ha
    exact ⟨List.mem_reverse.mp (List.mem_of_find?_eq_some ha), by simpa using List.find?_some ha⟩
  refine ⟨hmem a, ?_⟩
  rintro ⟨ha, rfl⟩
  cases hfind : answerByQuestion answers a.questionId with
  | none =>
    have hnone := List.find?_eq_none.mp hfind a (List.mem_reverse.mpr ha)
    exact absurd (decide_eq_true rfl) hnone
  | some a' =>
    obtain ⟨ha', hid⟩ := hmem a' hfind
    rw [List.inj_on_of_nodup_map h ha' ha hid]

theorem find?_eq_some_iff_of_countP {α : Type} {p : α → Bool} {l : List α} (h : l.countP p = 1)
    {x : α} : l.find? p = some x ↔ x ∈ l ∧ p x = true := by
  constructor
  · intro hx
    exact ⟨List.mem_of_find?_eq_some hx, List.find?_some hx⟩
  · rintro ⟨hx, hpx⟩
    obtain ⟨y, hy⟩ := List.length_eq_one_iff.mp (List.countP_eq_length_filter ▸ h)
    have hfind : l.find? p = some y := by
      rw [← List.head?_filter, hy]
      rfl
    have hxy : x ∈ [y] := hy ▸ List.mem_filter.mpr ⟨hx, hpx⟩
    rw [hfind, List.mem_singleton.mp hxy]

def selectsCorrect (quiz : Quiz.Db) (a : AttemptAnswerRow) : Bool :=
  (a.selectedOptionId.bind quiz.quizAnswerOptions.find?).any (·.isCorrect)

theorem isCorrectFor_eq {g : QuizQuestionRow × List QuizAnswerOptionRow}
    (h : Gradable quiz quizVersionId answers) (hg : g.1 ∈ quiz.questionsOf quizVersionId)
    (hoptions : g.2.Perm (quiz.optionsOf g.1.questionId)) {a : AttemptAnswerRow} (ha : a ∈ answers)
    (hid : a.questionId = g.1.questionId) :
    isCorrectFor g.2 (some a) = some true ↔ selectsCorrect quiz a = true := by
  unfold isCorrectFor selectsCorrect
  rw [Option.bind_some]
  cases hselected : a.selectedOptionId with
  | none => simp
  | some optionId =>
    obtain ⟨option, hoption, hof⟩ := h.selected a ha optionId hselected
    have hone : g.2.countP (·.isCorrect) = 1 := (hoptions.countP_eq _).trans (h.oneCorrect g.1 hg)
    have hmem : option ∈ g.2 := by
      refine hoptions.mem_iff.mpr (List.mem_filter.mpr ⟨Table.mem_of_find? hoption, ?_⟩)
      exact decide_eq_true (hof.trans hid)
    rw [Option.map_some, Option.bind_some, hoption, Option.any_some, Option.some.injEq,
      decide_eq_true_eq]
    constructor
    · intro hfirst
      obtain ⟨first, hfind, hfirstId⟩ := Option.map_eq_some_iff.mp hfirst
      obtain ⟨hfirstMem, hcorrect⟩ := (find?_eq_some_iff_of_countP hone).mp hfind
      -- options with one id are one option
      have hsame : first = option := by
        refine Table.eq_of_key_eq (List.mem_filter.mp (hoptions.subset hfirstMem)).1
          (Table.mem_of_find? hoption) ?_
        exact hfirstId.trans (Table.key_of_find? hoption).symm
      exact hsame ▸ hcorrect
    · intro hcorrect
      rw [(find?_eq_some_iff_of_countP hone).mpr ⟨hmem, hcorrect⟩, Option.map_some,
        (Table.key_of_find? hoption : option.optionId = optionId)]

theorem correctCount_scoringData (quiz : Quiz.Db) (tournamentExists : Uuid → Bool)
    (answers : List AttemptAnswerRow) :
    (scoringData (catalog quiz tournamentExists) answers).correctCount
      = answers.countP (selectsCorrect quiz) := by
  simp only [scoringData, List.countP_filterMap]
  refine List.countP_congr fun a _ => ?_
  simp only [selectsCorrect, catalog]
  cases a.selectedOptionId with
  | none => rfl
  | some optionId =>
    simp only [Option.bind_some]
    cases quiz.quizAnswerOptions.find? optionId <;> rfl

/-! ## Agreement -/

theorem isCorrect_reviewQuestion_iff {g : QuizQuestionRow × List QuizAnswerOptionRow}
    (h : Gradable quiz quizVersionId answers) (hg : g.1 ∈ quiz.questionsOf quizVersionId)
    (hoptions : g.2.Perm (quiz.optionsOf g.1.questionId)) :
    (reviewQuestion answers g).isCorrect = some true ↔
      ∃ a ∈ answers, a.questionId = g.1.questionId ∧ selectsCorrect quiz a = true := by
  simp only [reviewQuestion]
  constructor
  · intro hcorrect
    cases hanswer : answerByQuestion answers g.1.questionId with
    | none =>
      rw [hanswer] at hcorrect
      cases hcorrect
    | some a =>
      obtain ⟨ha, hid⟩ := (answerByQuestion_eq_some_iff h.nodup).mp hanswer
      rw [hanswer, isCorrectFor_eq h hg hoptions ha hid] at hcorrect
      exact ⟨a, ha, hid, hcorrect⟩
  · rintro ⟨a, ha, hid, hcorrect⟩
    rw [(answerByQuestion_eq_some_iff h.nodup).mpr ⟨ha, hid⟩, isCorrectFor_eq h hg hoptions ha hid]
    exact hcorrect

/-- **As many questions are marked correct as answers are scored correct.** -/
theorem countP_isCorrect (h : Gradable quiz quizVersionId answers) :
    ((hydrateQuestions (getQuestionsByVersionId quiz quizVersionId)).map
        (reviewQuestion answers)).countP (fun q => q.isCorrect = some true)
      = answers.countP (selectsCorrect quiz) := by
  obtain ⟨hperm, hoptions⟩ := hydrateQuestions_perm quiz quizVersionId
  generalize hydrateQuestions (getQuestionsByVersionId quiz quizVersionId) = groups at hperm hoptions
  have hmem : ∀ g ∈ groups, g.1 ∈ quiz.questionsOf quizVersionId := fun g hg =>
    hperm.subset (List.mem_map_of_mem hg)
  -- both sides count the questions that are answered correctly
  let marked := groups.filter fun g => (reviewQuestion answers g).isCorrect = some true
  let scored := answers.filter (selectsCorrect quiz)
  have hsame : (marked.map fun g => g.1.questionId).Perm (scored.map (·.questionId)) := by
    refine (List.perm_ext_iff_of_nodup ?_ ?_).mpr ?_
    · have hids := (hperm.map (·.questionId)).nodup_iff.mpr (nodup_questionsOf quiz quizVersionId)
      rw [List.map_map] at hids
      exact hids.sublist (List.filter_sublist.map _)
    · exact h.nodup.sublist (List.filter_sublist.map _)
    · intro questionId
      simp only [marked, scored, List.mem_map, List.mem_filter, decide_eq_true_eq]
      constructor
      · rintro ⟨g, ⟨hg, hcorrect⟩, rfl⟩
        obtain ⟨a, ha, hid, hselects⟩ :=
          (isCorrect_reviewQuestion_iff h (hmem g hg) (hoptions g hg)).mp hcorrect
        exact ⟨a, ⟨ha, hselects⟩, hid⟩
      · rintro ⟨a, ⟨ha, hselects⟩, rfl⟩
        obtain ⟨q, hq, hid⟩ := h.question a ha
        obtain ⟨g, hg, rfl⟩ := List.mem_map.mp (hperm.symm.subset hq)
        exact ⟨g, ⟨hg, (isCorrect_reviewQuestion_iff h hq (hoptions g hg)).mpr
          ⟨a, ha, hid.symm, hselects⟩⟩, hid⟩
  have hlength := hsame.length_eq
  rw [List.length_map, List.length_map] at hlength
  rw [List.countP_map, List.countP_eq_length_filter, List.countP_eq_length_filter]
  exact hlength

theorem isCorrect_eq_none_iff (h : (answers.map (·.questionId)).Nodup)
    (g : QuizQuestionRow × List QuizAnswerOptionRow) :
    (reviewQuestion answers g).isCorrect = none ↔
      ∀ a ∈ answers, a.questionId = g.1.questionId → a.selectedOptionId = none := by
  simp only [reviewQuestion, isCorrectFor, Option.map_eq_none_iff]
  constructor
  · intro hnone a ha hid
    rw [(answerByQuestion_eq_some_iff h).mpr ⟨ha, hid⟩, Option.bind_some] at hnone
    exact hnone
  · intro hnone
    cases hanswer : answerByQuestion answers g.1.questionId with
    | none => rfl
    | some a =>
      obtain ⟨ha, hid⟩ := (answerByQuestion_eq_some_iff h).mp hanswer
      exact hnone a ha hid

/-- **What can be graded is graded alike.** -/
theorem agreesWith_of_gradable (h : Gradable quiz quizVersionId answers) (attempt : AttemptDetailRow)
    (tournamentExists : Uuid → Bool) :
    AgreesWith (toAttemptReviewResponse attempt answers (getQuestionsByVersionId quiz quizVersionId))
      quiz quizVersionId answers (scoringData (catalog quiz tournamentExists) answers) where
  correctCount := by
    rw [correctCount_scoringData]
    exact countP_isCorrect h
  unmarked := by
    intro q hq
    obtain ⟨g, -, rfl⟩ := List.mem_map.mp hq
    exact isCorrect_eq_none_iff h.nodup g
  questions := by
    have hperm := (hydrateQuestions_perm quiz quizVersionId).1.map fun q : QuizQuestionRow =>
      (q.questionId, q.position, q.questionText, q.imageUrl)
    rw [List.map_map] at hperm
    simp only [toAttemptReviewResponse, List.map_map]
    exact hperm
  ordered := by
    have hordered := hydrateQuestions_ordered h
    rw [List.pairwise_map] at hordered
    exact List.pairwise_map.mpr hordered

end Questions

end QuizBackend.Attempt
