import QuizBackend.Quiz.Requests
import QuizBackend.Lib.Exclusive

/-!
# What the writes of authoring do

A write adds a quiz, a version or a question with its options, or edits rows that stay where they are.
`Licensed` says what is known of a write when a request makes it, from its own checks and from what it
has learnt before and is still true (`RequestOk`); under it each table after a write is the table
before with at most one new row and the edit of the write on the others (`find?_quizVersions_apply`
and its siblings). A version keeps its quiz and its number for ever and never becomes a draft again,
which is why what requests have learnt stays true (`RequestOk.apply`).
-/

namespace QuizBackend.Quiz

open Lib Table Request Write QuizVersionPolicy Db
open Attempt (JwtPayload UserRole)
open Option (map_id')

/-! ## Licences -/

/-- The user may edit the versions of this creator. -/
def MayEdit (creatorId : Option Uuid) (user : JwtPayload) : Prop :=
  hasPermission user.role .quizVersionEditAny = true ∨
    hasPermission user.role .quizVersionEditOwn = true ∧ creatorId = some user.sub

def Db.VersionOf (db : Db) (quizVersionId quizId : Uuid) : Prop :=
  ∃ row, db.quizVersions.find? quizVersionId = some row ∧ row.quizId = quizId

def Db.MayAdd (db : Db) (quizVersionId : Uuid) (user : JwtPayload) : Prop :=
  ∃ row quiz, db.quizVersions.find? quizVersionId = some row ∧
    db.quizzes.find? row.quizId = some quiz ∧ (row.status = .draft → MayEdit quiz.creatorId user)

/-- What a request has learnt is true. -/
def RequestOk (db : Db) : Request → Prop
  | .publishCount quizId quizVersionId _ | .publishTx quizId quizVersionId _ =>
    db.VersionOf quizVersionId quizId
  | .insertQuestion quizVersionId user question _ =>
    db.MayAdd quizVersionId user ∧ assertValidAnswerOptions question.answerOptions = .ok ()
  | .insertQuestions quizVersionId user _ _ _ => db.MayAdd quizVersionId user
  | _ => True

/-- What is known of a write when a request makes it. -/
def Licensed (db : Db) : Write → Prop
  | .createQuizWithInitialVersion quiz version =>
    db.quizzes.find? quiz.quizId = none ∧ db.quizVersions.find? version.quizVersionId = none ∧
      version.quizId = quiz.quizId ∧ version.versionNumber = 1 ∧ version.status = .draft ∧
      quiz.publishedVersionId = none
  | .insertVersion row =>
    db.quizVersions.find? row.quizVersionId = none ∧ db.NumberFree row.quizId row.versionNumber ∧
      (∃ quiz, db.quizzes.find? row.quizId = some quiz) ∧ row.status = .draft
  | .publishQuizVersionAndSetQuiz quizId quizVersionId _ => db.VersionOf quizVersionId quizId
  | .createQuestionWithOptions question options =>
    db.quizQuestions.find? question.questionId = none ∧
      (∃ t, db.quizAnswerOptions.insertAll? options = some t) ∧
      db.PositionFree question.quizVersionId question.position ∧
      db.MayAdd question.quizVersionId question.insertedBy ∧
      (∀ option ∈ options, option.questionId = question.questionId) ∧
      options.countP (·.isCorrect) = 1
  | _ => True

def State.writes (s : State) (a : Action) : Write :=
  match s.outcome a with
  | some o => o.write
  | none => .nothing

theorem db_of_step {s s' : State} {a : Action} (h : step s a = some s') :
    s'.db = s.db.apply (s.writes a) := by
  obtain ⟨o, ho, rfl⟩ := Option.map_eq_some_iff.mp h
  simp only [State.writes, ho]

/-! ## What the checks establish -/

variable {user : JwtPayload} {quizVersionId : Uuid} {nowIso : Int} {d : Drawn}
  {row : QuizVersionRow} {r : Request}

theorem canManageOwnOrAny_iff {creatorId : Option Uuid} :
    canManageOwnOrAny (isOwner creatorId user) (hasPermission user.role .quizVersionEditAny)
      (hasPermission user.role .quizVersionEditOwn) = true ↔ MayEdit creatorId user := by
  simp [canManageOwnOrAny, isOwner, MayEdit]

theorem getEditTransition_ne_blocked {status : QuizVersionStatus} {creatorId : Option Uuid}
    (h : getEditTransition status (isOwner creatorId user) user ≠ .blocked) :
    status = .draft ∧ MayEdit creatorId user ∨ status = .published := by
  unfold getEditTransition at h
  split at h
  · rename_i hedit
    rw [canEditQuizVersion, Bool.and_eq_true, decide_eq_true_eq, canManageOwnOrAny_iff] at hedit
    exact .inl hedit
  · split at h
    · exact .inr ‹_›
    · exact absurd rfl h

theorem of_getQuizVersionDetailById {db : Db} {detail : QuizVersionDetail}
    (h : db.getQuizVersionDetailById quizVersionId = some detail) :
    ∃ quiz, db.quizVersions.find? quizVersionId = some detail.version ∧
      db.quizzes.find? detail.version.quizId = some quiz ∧ quiz.creatorId = detail.quizCreatorId := by
  obtain ⟨version, hversion, h⟩ := Option.bind_eq_some_iff.mp h
  obtain ⟨quiz, hquiz, h⟩ := Option.bind_eq_some_iff.mp h
  split at h
  · cases h
  · cases h
    exact ⟨quiz, hversion, hquiz, rfl⟩

theorem mayAdd_of_assertCanCreateQuestions {db : Db} {quizId : Uuid}
    (h : assertCanCreateQuestions db quizId quizVersionId user = .ok ()) :
    db.MayAdd quizVersionId user := by
  unfold assertCanCreateQuestions at h
  split at h
  · cases h
  · rename_i detail hdetail
    obtain ⟨quiz, hversion, hquiz, hcreator⟩ := of_getQuizVersionDetailById hdetail
    refine ⟨detail.version, quiz, hversion, hquiz, ?_⟩
    intro hdraft
    split at h
    · cases h
    · unfold assertCanAddQuestions assertCanEdit at h
      split at h
      · cases h
      · rename_i hblocked
        rcases getEditTransition_ne_blocked hblocked with ⟨-, hmay⟩ | hpublished
        · exact hcreator ▸ hmay
        · rw [hdraft] at hpublished
          cases hpublished

theorem requestOk_publishQuizVersion (db : Db) (quizId quizVersionId : Uuid) (user : JwtPayload)
    (nowIso : Int) : RequestOk db (publishQuizVersion db quizId quizVersionId user nowIso) := by
  unfold publishQuizVersion
  split
  · trivial
  · rename_i detail hdetail
    split
    · trivial
    · split
      · trivial
      · split
        · trivial
        · obtain ⟨quiz, hversion, -⟩ := of_getQuizVersionDetailById hdetail
          exact ⟨detail.version, hversion, rfl⟩

theorem requestOk_createQuizQuestion (db : Db) (quizId quizVersionId : Uuid) (user : JwtPayload)
    (question : QuestionCommand) (nowIso : Int) :
    RequestOk db (createQuizQuestion db quizId quizVersionId user question nowIso) := by
  unfold createQuizQuestion
  split
  · trivial
  · rename_i hmay
    split
    · trivial
    · exact ⟨mayAdd_of_assertCanCreateQuestions hmay, ‹_›⟩

theorem requestOk_createQuizQuestions (db : Db) (quizId quizVersionId : Uuid) (user : JwtPayload)
    (questions : List QuestionCommand) (nowIso : Int) :
    RequestOk db (createQuizQuestions db quizId quizVersionId user questions nowIso) := by
  unfold createQuizQuestions
  split
  · trivial
  · rename_i hmay
    split
    · trivial
    · exact mayAdd_of_assertCanCreateQuestions hmay

theorem countP_of_assertValidAnswerOptionsFrom {positions : List Int} {correctCount : Nat}
    {options : List AnswerOptionCommand}
    (h : assertValidAnswerOptionsFrom positions correctCount options = .ok ()) :
    correctCount + options.countP (·.isCorrect) = 1 := by
  induction options generalizing positions correctCount with
  | nil =>
    unfold assertValidAnswerOptionsFrom at h
    split at h
    · cases h
    · rename_i hone
      rw [List.countP_nil]
      omega
  | cons option options ih =>
    unfold assertValidAnswerOptionsFrom at h
    split at h
    · cases h
    · have hrest := ih h
      cases hcorrect : option.isCorrect with
      | true =>
        rw [hcorrect, if_pos rfl] at hrest
        rw [List.countP_cons, hcorrect, if_pos rfl]
        omega
      | false =>
        rw [hcorrect, if_neg (by decide)] at hrest
        rw [List.countP_cons, hcorrect, if_neg (by decide)]
        omega

theorem countP_options {q : QuestionCommand} {questionId : Uuid} {optionIds : List Uuid}
    (h : optionIds.length = q.answerOptions.length) :
    (q.options questionId optionIds nowIso).countP (·.isCorrect)
      = q.answerOptions.countP (·.isCorrect) := by
  unfold QuestionCommand.options
  generalize q.answerOptions = options at h
  induction options generalizing optionIds with
  | nil => rfl
  | cons option options ih =>
    cases optionIds with
    | nil => cases h
    | cons id ids =>
      rw [List.zipWith_cons_cons, List.countP_cons, List.countP_cons, ih (Nat.succ.inj h)]

theorem questionId_of_mem_options {q : QuestionCommand} {questionId : Uuid} {optionIds : List Uuid}
    {option : QuizAnswerOptionRow} (h : option ∈ q.options questionId optionIds nowIso) :
    option.questionId = questionId := by
  unfold QuestionCommand.options at h
  obtain ⟨i, hi, rfl⟩ := List.getElem_of_mem h
  rw [List.getElem_zipWith]

theorem licensed_createQuestionWithOptions {db : Db} {question : QuestionCommand} {w : Write}
    (hmay : db.MayAdd quizVersionId user)
    (hvalid : assertValidAnswerOptions question.answerOptions = .ok ())
    (h : createQuestionWithOptions db quizVersionId user question nowIso d = some (.ok w)) :
    Licensed db w := by
  simp only [createQuestionWithOptions] at h
  split at h
  · cases h
  · rename_i hdrawn
    rw [not_or, not_or, not_not, Option.not_isSome_iff_eq_none, Option.isNone_iff_eq_none, ← ne_eq,
      Option.ne_none_iff_exists'] at hdrawn
    obtain ⟨hlength, hfresh, hoptions⟩ := hdrawn
    split at h
    · cases h
    · rename_i herror
      cases h
      refine ⟨hfresh, hoptions, ?_, hmay, fun _ => questionId_of_mem_options, ?_⟩
      · rw [insertQuestionError, Option.map_eq_none_iff, questionFailure] at herror
        split at herror
        · cases herror
        · split at herror
          · cases herror
          · rename_i hfree
            exact not_not.mp hfree
      · rw [countP_options hlength]
        exact (Nat.zero_add _).symm.trans (countP_of_assertValidAnswerOptionsFrom hvalid)

theorem licensed_insertVersion {db : Db} (hstatus : row.status = .draft)
    (hfresh : db.quizVersions.find? row.quizVersionId = none) (h : insertVersionError db row = none) :
    Licensed db (.insertVersion row) := by
  unfold insertVersionError at h
  split at h
  · cases h
  · split at h
    · cases h
    · rename_i hfree
      split at h
      · cases h
      · rename_i hquiz
        rw [Option.isNone_iff_eq_none, ← ne_eq, Option.ne_none_iff_exists'] at hquiz
        exact ⟨hfresh, not_not.mp hfree, hquiz, hstatus⟩

theorem requestOk_of_isNew {db : Db} (h : r.isNew = true) : RequestOk db r := by
  cases r with
  | publishCount | publishTx | insertQuestion | insertQuestions => cases h
  | _ => trivial

section NextSpec

variable {db : Db} {p : Progress}

/-- The draws of a new quiz are of rows that do not exist. -/
theorem next_createQuiz {payload : CreateQuizPayload}
    (h : (createQuiz payload).next db d = some p) :
    Licensed db p.write ∧ RequestOk db p.request := by
  simp only [next] at h
  split at h
  · cases h
  · rename_i hfresh
    rw [not_or, Option.not_isSome_iff_eq_none, Option.not_isSome_iff_eq_none] at hfresh
    split at h
    · cases h
      exact ⟨trivial, trivial⟩
    · cases h
      exact ⟨⟨hfresh.1, hfresh.2, rfl, rfl, rfl, rfl⟩, trivial⟩

/-- A version that is inserted has its number free and its quiz stored. -/
theorem next_insertVersion {v : NewVersion} {versionNumber : Int}
    (h : (insertVersion v versionNumber).next db d = some p) :
    Licensed db p.write ∧ RequestOk db p.request := by
  simp only [next] at h
  split at h
  · cases h
  · rename_i hfresh
    rw [Option.not_isSome_iff_eq_none] at hfresh
    split at h
    · cases h
      exact ⟨trivial, trivial⟩
    · cases h
      exact ⟨licensed_insertVersion rfl hfresh ‹_›, trivial⟩

/-- A round of the bulk route stores its question, if at all, as the single route does. -/
theorem next_insertQuestions {quizVersionId : Uuid} {user : JwtPayload} {nowIso : Int}
    {questions : List QuestionCommand} {rowResults : List RowResult}
    (hr : db.MayAdd quizVersionId user)
    (h : (insertQuestions quizVersionId user questions nowIso rowResults).next db d = some p) :
    Licensed db p.write ∧ RequestOk db p.request := by
  cases questions with
  | nil =>
    cases h
    exact ⟨trivial, trivial⟩
  | cons question questions =>
    simp only [next, insertQuestionsRound] at h
    split at h
    · cases h
      exact ⟨trivial, hr⟩
    · rename_i hvalid
      obtain ⟨result, hresult, rfl⟩ := Option.map_eq_some_iff.mp h
      cases result with
      | error e => exact ⟨trivial, hr⟩
      | ok w => exact ⟨licensed_createQuestionWithOptions hr hvalid hresult, hr⟩

/-- **A statement makes a licensed write, and what the request knows after it was true before.** -/
theorem next_spec (hr : RequestOk db r) (h : r.next db d = some p) :
    Licensed db p.write ∧ RequestOk db p.request := by
  cases r with
  | createQuiz payload => exact next_createQuiz h
  | createVersion quizId user command nowIso =>
    cases h
    refine ⟨trivial, ?_⟩
    simp only [Progress.goto, createQuizVersion]
    repeat' split
    all_goals trivial
  | createVersionFrom quizId user settings sourceVersionId nowIso =>
    cases h
    refine ⟨trivial, ?_⟩
    simp only [Progress.goto, createQuizVersionFrom]
    repeat' split
    all_goals trivial
  | nextNumber v =>
    cases h
    exact ⟨trivial, trivial⟩
  | insertVersion v versionNumber => exact next_insertVersion h
  | updateVersion quizId quizVersionId user command nowIso =>
    cases h
    refine ⟨trivial, ?_⟩
    simp only [Progress.goto, updateQuizVersion]
    repeat' split
    all_goals trivial
  | updateVersionWrite quizVersionId settings nowIso =>
    simp only [next] at h
    repeat' split at h
    all_goals
      cases h
      exact ⟨trivial, trivial⟩
  | publish quizId quizVersionId user nowIso =>
    cases h
    exact ⟨trivial, requestOk_publishQuizVersion db quizId quizVersionId user nowIso⟩
  | publishCount quizId quizVersionId nowIso =>
    simp only [next] at h
    split at h
    · cases h
      exact ⟨trivial, trivial⟩
    · cases h
      exact ⟨trivial, hr⟩
  | publishTx quizId quizVersionId nowIso =>
    cases h
    exact ⟨hr, trivial⟩
  | createQuestion quizId quizVersionId user question nowIso =>
    cases h
    exact ⟨trivial, requestOk_createQuizQuestion db quizId quizVersionId user question nowIso⟩
  | insertQuestion quizVersionId user question nowIso =>
    obtain ⟨result, hresult, rfl⟩ := Option.map_eq_some_iff.mp h
    cases result with
    | error e => exact ⟨trivial, trivial⟩
    | ok w => exact ⟨licensed_createQuestionWithOptions hr.1 hr.2 hresult, trivial⟩
  | createQuestions quizId quizVersionId user questions nowIso =>
    cases h
    exact ⟨trivial, requestOk_createQuizQuestions db quizId quizVersionId user questions nowIso⟩
  | insertQuestions quizVersionId user questions nowIso rowResults => exact next_insertQuestions hr h
  | done => cases h
  | answered rowResults => cases h
  | failed error => cases h

end NextSpec

/-- The write is one that this request makes. -/
def Request.Makes (r : Request) : Write → Prop
  | .nothing => True
  | .createQuizWithInitialVersion quiz version =>
    ∃ payload quizId quizVersionId, r = .createQuiz payload ∧ quiz = payload.quiz quizId ∧
      version = payload.version quizId quizVersionId
  | .insertVersion row =>
    ∃ v quizVersionId versionNumber, r = .insertVersion v versionNumber ∧
      row = v.row quizVersionId versionNumber
  | .updateQuizVersion quizVersionId settings nowIso =>
    r = .updateVersionWrite quizVersionId settings nowIso
  | .publishQuizVersionAndSetQuiz quizId quizVersionId nowIso =>
    r = .publishTx quizId quizVersionId nowIso
  | .createQuestionWithOptions question _ =>
    (∃ command nowIso,
      r = .insertQuestion question.quizVersionId question.insertedBy command nowIso) ∨
    ∃ commands nowIso rowResults,
      r = .insertQuestions question.quizVersionId question.insertedBy commands nowIso rowResults
  | .setFlags .. => False

theorem createQuestionWithOptions_eq {db : Db} {question : QuestionCommand} {w : Write}
    (h : createQuestionWithOptions db quizVersionId user question nowIso d = some (.ok w)) :
    w = .createQuestionWithOptions (question.row d.id quizVersionId user nowIso)
      (question.options d.id d.optionIds nowIso) := by
  simp only [createQuestionWithOptions] at h
  split at h
  · cases h
  · split at h
    · cases h
    · cases h
      rfl

/-- **Each write is made from one point.** -/
theorem makes_of_next {db : Db} {p : Progress} (h : r.next db d = some p) : r.Makes p.write := by
  cases r with
  | createQuiz payload =>
    simp only [next] at h
    split at h
    · cases h
    · split at h
      · cases h
        trivial
      · cases h
        exact ⟨payload, d.id, d.versionId, rfl, rfl, rfl⟩
  | insertVersion v versionNumber =>
    simp only [next] at h
    split at h
    · cases h
    · split at h
      · cases h
        trivial
      · cases h
        exact ⟨v, d.versionId, versionNumber, rfl, rfl⟩
  | updateVersionWrite quizVersionId settings nowIso =>
    simp only [next] at h
    split at h
    · cases h
      trivial
    · split at h
      · cases h
        rfl
      · cases h
        trivial
  | publishCount quizId quizVersionId nowIso =>
    simp only [next] at h
    split at h
    · cases h
      trivial
    · cases h
      trivial
  | publishTx quizId quizVersionId nowIso =>
    cases h
    rfl
  | insertQuestion quizVersionId user question nowIso =>
    obtain ⟨result, hresult, rfl⟩ := Option.map_eq_some_iff.mp h
    cases result with
    | error e => trivial
    | ok w =>
      rw [createQuestionWithOptions_eq hresult]
      exact .inl ⟨question, nowIso, rfl⟩
  | insertQuestions quizVersionId user questions nowIso rowResults =>
    cases questions with
    | nil =>
      cases h
      trivial
    | cons question questions =>
      simp only [next, insertQuestionsRound] at h
      split at h
      · cases h
        trivial
      · obtain ⟨result, hresult, rfl⟩ := Option.map_eq_some_iff.mp h
        cases result with
        | error e => trivial
        | ok w =>
          rw [createQuestionWithOptions_eq hresult]
          exact .inr ⟨_, nowIso, rowResults, rfl⟩
  | done | answered _ | failed _ => cases h
  | _ =>
    -- the statements that only read
    cases h
    trivial

/-! ## The tables after a write -/

def Write.newVersion : Write → Option QuizVersionRow
  | .createQuizWithInitialVersion _ version => some version
  | .insertVersion row => some row
  | _ => none

def Write.editsVersion : Write → QuizVersionRow → QuizVersionRow
  | .updateQuizVersion quizVersionId settings nowIso, row =>
    if row.quizVersionId = quizVersionId then row.setSettings settings nowIso else row
  | .publishQuizVersionAndSetQuiz quizId quizVersionId nowIso, row =>
    if row.quizVersionId = quizVersionId then
      if row.status = .draft then row.setPublished nowIso else row
    else row.archiveOther quizId quizVersionId nowIso
  | _, row => row

def Write.editsQuiz (db : Db) : Write → QuizRow → QuizRow
  | .publishQuizVersionAndSetQuiz quizId quizVersionId nowIso, row =>
    if row.quizId = quizId ∧ (db.quizVersions.find? quizVersionId).map (·.status) = some .draft then
      row.setPublishedVersion quizVersionId nowIso
    else row
  | .setFlags quizId flags, row => if row.quizId = quizId then row.setFlags flags else row
  | _, row => row

section Apply

variable {db : Db} {w : Write}

theorem publish_of_draft {quizId : Uuid} {target : QuizVersionRow}
    (htarget : db.quizVersions.find? quizVersionId = some target) (hquiz : target.quizId = quizId)
    (hdraft : target.status = .draft) :
    db.publishQuizVersionAndSetQuiz quizId quizVersionId nowIso
      = (db.archiveOthers quizId quizVersionId nowIso).publishDraft quizId quizVersionId nowIso := by
  simp only [Db.publishQuizVersionAndSetQuiz, htarget, hquiz, hdraft, ne_eq, not_true, if_false,
    if_true]

theorem publish_of_not_draft {quizId : Uuid} {target : QuizVersionRow}
    (htarget : db.quizVersions.find? quizVersionId = some target) (hquiz : target.quizId = quizId)
    (hdraft : target.status ≠ .draft) :
    db.publishQuizVersionAndSetQuiz quizId quizVersionId nowIso
      = db.archiveOthers quizId quizVersionId nowIso := by
  simp only [Db.publishQuizVersionAndSetQuiz, htarget, hquiz, hdraft, ne_eq, not_true, if_false]

theorem find?_archiveOthers (quizId quizVersionId : Uuid) (nowIso : Int) (k : Uuid) :
    (db.archiveOthers quizId quizVersionId nowIso).quizVersions.find? k
      = (db.quizVersions.find? k).map (·.archiveOther quizId quizVersionId nowIso) := by
  simp only [archiveOthers, find?_update]

theorem find?_publishDraft (quizId quizVersionId : Uuid) (nowIso : Int) (k : Uuid) :
    (db.publishDraft quizId quizVersionId nowIso).quizVersions.find? k
      = (db.quizVersions.find? k).map fun row =>
          if row.quizVersionId = quizVersionId then row.setPublished nowIso else row := by
  simp only [publishDraft, find?_modify_map]

theorem editsVersion_publish (quizId : Uuid) (nowIso : Int) (row : QuizVersionRow) :
    (publishQuizVersionAndSetQuiz quizId quizVersionId nowIso).editsVersion row
      = if row.quizVersionId = quizVersionId ∧ row.status = .draft then row.setPublished nowIso
        else row.archiveOther quizId quizVersionId nowIso := by
  simp only [editsVersion]
  by_cases hid : row.quizVersionId = quizVersionId
  · have hself : row.archiveOther quizId quizVersionId nowIso = row := if_neg fun hc => hc.2.2 hid
    by_cases hdraft : row.status = .draft
    · rw [if_pos hid, if_pos hdraft, if_pos ⟨hid, hdraft⟩]
    · rw [if_pos hid, if_neg hdraft, if_neg fun hc => hdraft hc.2, hself]
  · rw [if_neg hid, if_neg fun hc => hid hc.1]

theorem find?_publish {quizId : Uuid} (k : Uuid) (h : db.VersionOf quizVersionId quizId) :
    (db.publishQuizVersionAndSetQuiz quizId quizVersionId nowIso).quizVersions.find? k
      = (db.quizVersions.find? k).map
          (publishQuizVersionAndSetQuiz quizId quizVersionId nowIso).editsVersion := by
  obtain ⟨target, htarget, hquiz⟩ := h
  -- a row with the id of the target is the target
  have hrow : ∀ row, db.quizVersions.find? k = some row → row.quizVersionId = quizVersionId →
      row = target := by
    intro row hrow hid
    rw [key_of_find? hrow] at hid
    rw [hid, htarget] at hrow
    exact (Option.some.inj hrow).symm
  by_cases hdraft : target.status = .draft
  · rw [publish_of_draft htarget hquiz hdraft, find?_publishDraft, find?_archiveOthers, Option.map_map]
    refine Option.map_congr ?_
    intro row hk
    rw [editsVersion_publish, Function.comp_apply, QuizVersionRow.archiveOther_quizVersionId]
    by_cases hid : row.quizVersionId = quizVersionId
    · have hself : row.archiveOther quizId quizVersionId nowIso = row :=
        if_neg fun hc => hc.2.2 hid
      rw [if_pos hid, if_pos ⟨hid, hrow row hk hid ▸ hdraft⟩, hself]
    · rw [if_neg hid, if_neg fun hc => hid hc.1]
  · rw [publish_of_not_draft htarget hquiz hdraft, find?_archiveOthers]
    refine Option.map_congr ?_
    intro row hk
    rw [editsVersion_publish, if_neg]
    rintro ⟨hid, hstatus⟩
    exact hdraft (hrow row hk hid ▸ hstatus)

/-- **The versions after a write.** -/
theorem find?_quizVersions_apply (h : Licensed db w) (k : Uuid) :
    (db.apply w).quizVersions.find? k
      = match w.newVersion with
        | some row => if row.quizVersionId = k then some row else db.quizVersions.find? k
        | none => (db.quizVersions.find? k).map w.editsVersion := by
  have hnew : ∀ row : QuizVersionRow, db.quizVersions.find? row.quizVersionId = none →
      ((db.quizVersions.insert? row).getD db.quizVersions).find? k
        = if row.quizVersionId = k then some row else db.quizVersions.find? k := by
    intro row hfresh
    obtain ⟨t, ht⟩ := insert?_isSome hfresh
    rw [ht, Option.getD_some, find?_insert? ht]
  cases w with
  | nothing => exact map_id'.symm
  | createQuizWithInitialVersion quiz version => exact hnew version h.2.1
  | insertVersion row => exact hnew row h.1
  | updateQuizVersion quizVersionId settings nowIso =>
    simp only [apply, find?_modify_map, newVersion]
    rfl
  | publishQuizVersionAndSetQuiz quizId quizVersionId nowIso => exact find?_publish k h
  | createQuestionWithOptions question options => exact map_id'.symm
  | setFlags quizId flags => exact map_id'.symm

theorem find?_quizzes_publish {quizId : Uuid} (k : Uuid) (h : db.VersionOf quizVersionId quizId) :
    (db.publishQuizVersionAndSetQuiz quizId quizVersionId nowIso).quizzes.find? k
      = (db.quizzes.find? k).map
          ((publishQuizVersionAndSetQuiz quizId quizVersionId nowIso).editsQuiz db) := by
  obtain ⟨target, htarget, hquiz⟩ := h
  by_cases hdraft : target.status = .draft
  · rw [publish_of_draft htarget hquiz hdraft]
    simp only [publishDraft, archiveOthers, find?_modify_map]
    refine Option.map_congr ?_
    intro row _
    simp only [editsQuiz, htarget, Option.map_some, hdraft, and_true]
  · rw [publish_of_not_draft htarget hquiz hdraft]
    have hsame : ∀ row,
        (publishQuizVersionAndSetQuiz quizId quizVersionId nowIso).editsQuiz db row = row := by
      intro row
      simp only [editsQuiz, htarget, Option.map_some, Option.some.injEq, hdraft, and_false,
        if_false]
    rw [funext hsame, map_id']
    rfl

/-- **The quizzes after a write.** -/
theorem find?_quizzes_apply (h : Licensed db w) (k : Uuid) :
    (db.apply w).quizzes.find? k
      = match w with
        | .createQuizWithInitialVersion quiz _ =>
          if quiz.quizId = k then some quiz else db.quizzes.find? k
        | w => (db.quizzes.find? k).map (w.editsQuiz db) := by
  cases w with
  | nothing => exact map_id'.symm
  | createQuizWithInitialVersion quiz version =>
    obtain ⟨t, ht⟩ := insert?_isSome h.1
    show ((db.quizzes.insert? quiz).getD db.quizzes).find? k = _
    rw [ht, Option.getD_some, find?_insert? ht]
  | insertVersion row => exact map_id'.symm
  | updateQuizVersion quizVersionId settings nowIso => exact map_id'.symm
  | publishQuizVersionAndSetQuiz quizId quizVersionId nowIso => exact find?_quizzes_publish k h
  | createQuestionWithOptions question options => exact map_id'.symm
  | setFlags quizId flags =>
    simp only [apply, find?_modify_map]
    rfl

def Write.newQuestion : Write → Option (QuizQuestionRow × List QuizAnswerOptionRow)
  | .createQuestionWithOptions question options => some (question, options)
  | _ => none

theorem questions_apply_of_none (hw : w.newQuestion = none) :
    (db.apply w).quizQuestions = db.quizQuestions ∧
      (db.apply w).quizAnswerOptions = db.quizAnswerOptions := by
  cases w with
  | createQuestionWithOptions question options => cases hw
  | publishQuizVersionAndSetQuiz quizId target nowIso =>
    simp only [Db.apply, Db.publishQuizVersionAndSetQuiz]
    repeat' split
    all_goals exact ⟨rfl, rfl⟩
  | _ => exact ⟨rfl, rfl⟩

/-- **The questions and the options after a write** that inserts a question. -/
theorem rows_apply_question {question : QuizQuestionRow} {options : List QuizAnswerOptionRow}
    (h : Licensed db (.createQuestionWithOptions question options)) :
    (db.apply (.createQuestionWithOptions question options)).quizQuestions.rows
        = db.quizQuestions.rows ++ [question] ∧
      (db.apply (.createQuestionWithOptions question options)).quizAnswerOptions.rows
        = db.quizAnswerOptions.rows ++ options := by
  obtain ⟨t, ht⟩ := insert?_isSome h.1
  obtain ⟨t', ht'⟩ := h.2.1
  simp only [apply, ht, ht', Option.getD_some, rows_of_insert? ht,
    rows_of_insertAll? ht', and_self]

theorem mem_rows_apply_question (h : Licensed db w) :
    (∀ question ∈ db.quizQuestions.rows, question ∈ (db.apply w).quizQuestions.rows) ∧
      ∀ option ∈ db.quizAnswerOptions.rows, option ∈ (db.apply w).quizAnswerOptions.rows := by
  cases hw : w.newQuestion with
  | none =>
    rw [(questions_apply_of_none hw).1, (questions_apply_of_none hw).2]
    exact ⟨fun _ h => h, fun _ h => h⟩
  | some new =>
    cases w with
    | createQuestionWithOptions question options =>
      rw [(rows_apply_question h).1, (rows_apply_question h).2]
      exact ⟨fun _ => List.mem_append_left _, fun _ => List.mem_append_left _⟩
    | _ => cases hw

/-! ## What stays -/

theorem editsVersion_identity (w : Write) (row : QuizVersionRow) :
    (w.editsVersion row).quizVersionId = row.quizVersionId ∧
      (w.editsVersion row).quizId = row.quizId ∧
      (w.editsVersion row).versionNumber = row.versionNumber := by
  cases w with
  | updateQuizVersion quizVersionId settings nowIso =>
    simp only [editsVersion]
    split <;> exact ⟨rfl, rfl, rfl⟩
  | publishQuizVersionAndSetQuiz quizId quizVersionId nowIso =>
    rw [editsVersion_publish]
    split
    · exact ⟨rfl, rfl, rfl⟩
    · unfold QuizVersionRow.archiveOther
      split <;> exact ⟨rfl, rfl, rfl⟩
  | _ => exact ⟨rfl, rfl, rfl⟩

theorem editsVersion_draft {w : Write} (h : (w.editsVersion row).status = .draft) :
    row.status = .draft := by
  cases w with
  | updateQuizVersion quizVersionId settings nowIso =>
    simp only [editsVersion] at h
    split at h <;> exact h
  | publishQuizVersionAndSetQuiz quizId quizVersionId nowIso =>
    rw [editsVersion_publish] at h
    split at h
    · cases h
    · unfold QuizVersionRow.archiveOther at h
      split at h
      · cases h
      · exact h
  | _ => exact h

section

variable (h : Licensed db w)
include h

theorem find?_quizVersions_of_find? {k : Uuid}
    (hrow : db.quizVersions.find? k = some row) :
    (db.apply w).quizVersions.find? k = some (w.editsVersion row) := by
  have hfresh : ∀ version : QuizVersionRow, db.quizVersions.find? version.quizVersionId = none →
      (if version.quizVersionId = k then some version else db.quizVersions.find? k) = some row := by
    intro version hnone
    rw [if_neg, hrow]
    rintro rfl
    rw [hrow] at hnone
    cases hnone
  rw [find?_quizVersions_apply h]
  cases w with
  | createQuizWithInitialVersion quiz version => exact hfresh version h.2.1
  | insertVersion version => exact hfresh version h.1
  | _ => exact congrArg (Option.map _) hrow

theorem find?_quizzes_of_find? {k : Uuid} {quiz : QuizRow}
    (hquiz : db.quizzes.find? k = some quiz) :
    ∃ quiz', (db.apply w).quizzes.find? k = some quiz' ∧ quiz'.creatorId = quiz.creatorId := by
  rw [find?_quizzes_apply h]
  cases w with
  | createQuizWithInitialVersion quiz₁ version =>
    refine ⟨quiz, ?_, rfl⟩
    show (if quiz₁.quizId = k then some quiz₁ else db.quizzes.find? k) = some quiz
    rw [if_neg, hquiz]
    rintro rfl
    have hnone := h.1
    rw [hquiz] at hnone
    cases hnone
  | publishQuizVersionAndSetQuiz quizId quizVersionId nowIso =>
    refine ⟨_, congrArg (Option.map _) hquiz, ?_⟩
    simp only [editsQuiz]
    split <;> rfl
  | setFlags quizId flags =>
    refine ⟨_, congrArg (Option.map _) hquiz, ?_⟩
    simp only [editsQuiz]
    split <;> rfl
  | _ => exact ⟨quiz, congrArg (Option.map _) hquiz, rfl⟩

theorem Db.VersionOf.apply {quizId : Uuid}
    (hof : db.VersionOf quizVersionId quizId) : (db.apply w).VersionOf quizVersionId quizId := by
  obtain ⟨row, hrow, hquiz⟩ := hof
  exact ⟨_, find?_quizVersions_of_find? h hrow, (editsVersion_identity w row).2.1.trans hquiz⟩

theorem Db.MayAdd.apply (hmay : db.MayAdd quizVersionId user) :
    (db.apply w).MayAdd quizVersionId user := by
  obtain ⟨row, quiz, hrow, hquiz, hedit⟩ := hmay
  obtain ⟨quiz', hquiz', hcreator⟩ := find?_quizzes_of_find? h hquiz
  refine ⟨_, quiz', find?_quizVersions_of_find? h hrow, ?_, ?_⟩
  · rw [(editsVersion_identity w row).2.1]
    exact hquiz'
  · intro hdraft
    exact hcreator ▸ hedit (editsVersion_draft hdraft)

/-- **What a request has learnt stays true**, whatever others write. -/
theorem RequestOk.apply (hr : RequestOk db r) : RequestOk (db.apply w) r := by
  cases r with
  | publishCount quizId quizVersionId nowIso => exact VersionOf.apply h hr
  | publishTx quizId quizVersionId nowIso => exact VersionOf.apply h hr
  | insertQuestion quizVersionId user question nowIso => exact ⟨hr.1.apply h, hr.2⟩
  | insertQuestions quizVersionId user questions nowIso rowResults => exact MayAdd.apply h hr
  | _ => trivial

end

end Apply

/-! ## The system -/

section Step

variable {s s' : State} {a : Action}

theorem step_cases (h : step s a = some s') :
    (∃ r, a = .arrive r ∧ r.isNew = true ∧ s.writes a = .nothing ∧
      s'.requests = s.requests ++ [r]) ∨
    (∃ i d r p, a = .advance i d ∧ s.requests[i]? = some r ∧ r.next s.db d = some p ∧
      s.writes a = p.write ∧ s'.requests = s.requests.set i p.request) ∨
    (∃ i r, a = .abort i ∧ s.requests[i]? = some r ∧ r.isOver = false ∧ s.writes a = .nothing ∧
      s'.requests = s.requests.set i (.failed (.operationFailed "database"))) ∨
    ∃ quizId flags, a = .setFlags quizId flags ∧ s.writes a = .setFlags quizId flags ∧
      s'.requests = s.requests := by
  obtain ⟨o, ho, rfl⟩ := Option.map_eq_some_iff.mp h
  simp only [State.writes, ho]
  cases a with
  | arrive r =>
    simp only [State.outcome] at ho
    split at ho
    · rename_i hnew
      cases ho
      exact .inl ⟨r, rfl, hnew, rfl, rfl⟩
    · cases ho
  | advance i d =>
    obtain ⟨r, hr, ho⟩ := Option.bind_eq_some_iff.mp ho
    obtain ⟨next, hnext, ho⟩ := Option.bind_eq_some_iff.mp ho
    cases ho
    exact .inr (.inl ⟨i, d, r, next, rfl, hr, hnext, rfl, rfl⟩)
  | abort i =>
    obtain ⟨r, hr, ho⟩ := Option.bind_eq_some_iff.mp ho
    split at ho
    · cases ho
    · rename_i hover
      cases ho
      exact .inr (.inr (.inl ⟨i, r, rfl, hr, Bool.not_eq_true _ ▸ hover, rfl, rfl⟩))
  | setFlags quizId flags =>
    cases ho
    exact .inr (.inr (.inr ⟨quizId, flags, rfl, rfl, rfl⟩))

/-- What holds of the requests, of new ones, of failed ones and wherever a statement leads, holds of
the requests after a step. -/
theorem forall_requests_of_step {P : Request → Prop} (h : step s a = some s')
    (hkept : ∀ r ∈ s.requests, P r) (hnew : ∀ r : Request, r.isNew = true → P r)
    (hnext : ∀ d, ∀ r ∈ s.requests, ∀ p, r.next s.db d = some p → s.writes a = p.write → P p.request)
    (hfailed : ∀ e, P (.failed e)) : ∀ r ∈ s'.requests, P r := by
  rcases step_cases h with ⟨r, -, hr, -, hs'⟩ | ⟨i, d, r, p, -, hr, hp, hw, hs'⟩ |
    ⟨i, r, -, -, -, -, hs'⟩ | ⟨quizId, flags, -, -, hs'⟩
  · exact hs' ▸ forall_mem_join hkept (hnew r hr)
  · exact hs' ▸ forall_mem_set hkept (hnext d r (List.mem_of_getElem? hr) p hp hw)
  · exact hs' ▸ forall_mem_set hkept (hfailed _)
  · exact hs' ▸ hkept

/-- What every request has learnt is true. -/
def Inv (s : State) : Prop := ∀ r ∈ s.requests, RequestOk s.db r

theorem inv_initial : Inv .initial := by
  intro r hr
  cases hr

/-- **Every write of the system is licensed.** -/
theorem licensed_writes (h : Inv s) (hstep : step s a = some s') : Licensed s.db (s.writes a) := by
  rcases step_cases hstep with ⟨r, -, -, hw, -⟩ | ⟨i, d, r, p, -, hr, hp, hw, -⟩ |
    ⟨i, r, -, -, -, hw, -⟩ | ⟨quizId, flags, -, hw, -⟩
  · exact hw ▸ trivial
  · exact hw ▸ (next_spec (h r (List.mem_of_getElem? hr)) hp).1
  · exact hw ▸ trivial
  · exact hw ▸ trivial

theorem Inv.step (h : Inv s) (hstep : step s a = some s') : Inv s' := by
  have hlicensed := licensed_writes h hstep
  refine forall_requests_of_step hstep ?_ (fun r => requestOk_of_isNew) ?_ (fun _ => trivial)
  · intro r hr
    exact db_of_step hstep ▸ (h r hr).apply hlicensed
  · intro d r hr p hp _
    exact db_of_step hstep ▸ (next_spec (h r hr) hp).2.apply hlicensed

end Step

end QuizBackend.Quiz
