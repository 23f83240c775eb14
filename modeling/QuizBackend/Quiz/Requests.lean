import QuizBackend.Quiz.Tables
import QuizBackend.Lib.Text

/-!
# Authoring requests as interleaved steps

Creating a quiz, creating, editing and publishing its versions, and adding questions: each request is
a sequence of statements, and the statements of different requests interleave freely.

* A `SELECT`, a single `INSERT` or `UPDATE`, and the transactions that only insert rows are one step
  each.
* The transaction of `publishQuizVersionAndSetQuiz` is one step, too: it holds the rows of the target
  and of the quiz from its beginning, and the status of a version is written by such transactions
  only.
* The next version number is read in a statement of its own, and so is every status a check relies
  on.
* At any point a request can fail with the database. Quizzes are moderated and deleted meanwhile.

Reads at the end of a request, whose result is only returned, domain events and log lines are left
out. The replica `getActiveQuizRecordById` reads from is taken to be up to date.
-/

namespace QuizBackend.Quiz

open Lib
open Attempt (JwtPayload UserRole minQuestionsToPublish)

/-! ## Errors -/

inductive QuizError
  | notFound (message : String)
  | forbidden (message : String)
  | conflict (message : String)
  | validation (message code : String)
  | versionImmutable (message : String)
  | insufficientQuestions (message : String)
  | questionPositionConflict (message : String)
  | answerOptionPositionConflict (message : String)
  | multipleCorrectOptions (message : String)
  | operationFailed (message : String)
  deriving DecidableEq

def QuizError.message : QuizError → String
  | notFound m | forbidden m | conflict m | validation m _ | versionImmutable m
  | insufficientQuestions m | questionPositionConflict m | answerOptionPositionConflict m
  | multipleCorrectOptions m | operationFailed m => m

def quizNotFoundMessage := "Quiz not found"
def quizVersionNotFoundMessage := "Quiz version not found"
def quizVersionConflictMessage := "Quiz version already exists"
def quizQuestionPositionConflictMessage := "Question position already exists"
def quizQuestionOptionPositionConflictMessage := "Answer option position already exists"
def quizQuestionCorrectOptionMessage := "Each question must have exactly one correct answer"
def quizInsufficientQuestionsMessage :=
  "Quiz version must contain at least 5 questions before publishing"

/-! ## Permissions (`permissions.ts`) -/

inductive Permission
  | quizVerify
  | quizVersionCreateOwn
  | quizVersionCreateAny
  | quizVersionEditOwn
  | quizVersionEditAny
  | quizVersionPublishOwn
  | quizVersionPublishAny
  deriving DecidableEq

def rolePermissions : UserRole → List Permission
  | .admin => [.quizVerify, .quizVersionCreateOwn, .quizVersionCreateAny, .quizVersionEditOwn,
      .quizVersionEditAny, .quizVersionPublishOwn, .quizVersionPublishAny]
  | .moderator => [.quizVersionPublishAny, .quizVerify]
  | .user => [.quizVersionCreateOwn, .quizVersionEditOwn, .quizVersionPublishOwn]

def hasPermission (role : UserRole) (permission : Permission) : Bool :=
  permission ∈ rolePermissions role

/-! ## Policies (`quiz-authorization.helper.ts`, `quiz-version.policy.ts`) -/

def canManageOwnOrAny (isOwner canManageAny canManageOwn : Bool) : Bool :=
  canManageAny || (canManageOwn && isOwner)

def isOwner (quizCreatorId : Option Uuid) (user : JwtPayload) : Bool :=
  quizCreatorId == some user.sub

def canEditQuizVersion (status : QuizVersionStatus) (isOwner canEditAny canEditOwn : Bool) : Bool :=
  status = .draft && canManageOwnOrAny isOwner canEditAny canEditOwn

def canPublishQuizVersion (status : QuizVersionStatus)
    (isOwner canPublishAny canPublishOwn quizIsVerified quizIsHidden canVerify : Bool) : Bool :=
  status = .draft && !((!quizIsVerified || quizIsHidden) && !canVerify) &&
    canManageOwnOrAny isOwner canPublishAny canPublishOwn

inductive EditTransitionResult
  | edit
  | draftFromPublished
  | blocked
  deriving DecidableEq

namespace QuizVersionPolicy

def assertCanCreate (isOwner : Bool) (user : JwtPayload) : Except QuizError Unit :=
  if canManageOwnOrAny isOwner (hasPermission user.role .quizVersionCreateAny)
      (hasPermission user.role .quizVersionCreateOwn) then .ok ()
  else .error (.forbidden "You do not have permission to manage this quiz")

/-- A published version may be a source of a draft; whose draft is not asked. -/
def getEditTransition (status : QuizVersionStatus) (isOwner : Bool) (user : JwtPayload) :
    EditTransitionResult :=
  if canEditQuizVersion status isOwner (hasPermission user.role .quizVersionEditAny)
      (hasPermission user.role .quizVersionEditOwn) then .edit
  else if status = .published then .draftFromPublished
  else .blocked

def assertCanEdit (status : QuizVersionStatus) (isOwner : Bool) (user : JwtPayload) :
    Except QuizError Unit :=
  if getEditTransition status isOwner user = .blocked then
    .error (.forbidden "You do not have permission to edit this quiz version")
  else .ok ()

def assertCanAddQuestions := assertCanEdit

def assertCanPublish (status : QuizVersionStatus) (isOwner : Bool) (user : JwtPayload)
    (quizIsVerified quizIsHidden : Bool) : Except QuizError Unit :=
  if status ≠ .draft then
    .error (.validation "Only draft versions can be published" "QUIZ_VALIDATION_FAILED")
  else if canPublishQuizVersion status isOwner (hasPermission user.role .quizVersionPublishAny)
      (hasPermission user.role .quizVersionPublishOwn) quizIsVerified quizIsHidden
      (hasPermission user.role .quizVerify) then .ok ()
  else .error (.forbidden "You do not have permission to publish this quiz version")

end QuizVersionPolicy

/-- `assertCanEditOrDraftFrom` of `quiz-version-state-machine.ts`. -/
def assertCanEditOrDraftFrom (status : QuizVersionStatus) (isOwner : Bool) (user : JwtPayload) :
    Except QuizError EditTransitionResult :=
  let canEditOwn := hasPermission user.role .quizVersionEditOwn
  let canEditAny := hasPermission user.role .quizVersionEditAny
  match status with
  | .archived =>
    .error (.versionImmutable "Archived versions are immutable and cannot be edited")
  | .published =>
    if canManageOwnOrAny isOwner canEditAny canEditOwn then .ok .draftFromPublished
    else .error (.forbidden "You do not have permission to create a draft from this version")
  | .draft =>
    if canEditQuizVersion .draft isOwner canEditAny canEditOwn then .ok .edit
    else .error (.forbidden "Only draft versions can be edited")

/-! ## Commands -/

/-- `normalizeNullableText(value) ?? null`. -/
def normalizeNullableText (value : Option String) : Option String :=
  (value.map trim).filter (· ≠ "")

structure AnswerOptionCommand where
  position : Int
  value : String
  isCorrect : Bool
  deriving DecidableEq

structure QuestionCommand where
  position : Int
  questionText : String
  imageUrl : Option String
  answerOptions : List AnswerOptionCommand
  deriving DecidableEq

structure CreateQuizVersionCommand where
  settings : VersionSettings
  sourceVersionId : Option Uuid
  deriving DecidableEq

structure UpdateQuizVersionCommand where
  difficulty : Option QuizDifficulty
  durationMs : Option Int
  passingScorePercent : Option Int
  rewardXp : Option Int
  deriving DecidableEq

def UpdateQuizVersionCommand.over (command : UpdateQuizVersionCommand) (settings : VersionSettings) :
    VersionSettings where
  difficulty := command.difficulty.getD settings.difficulty
  durationMs := command.durationMs.getD settings.durationMs
  passingScorePercent := command.passingScorePercent.getD settings.passingScorePercent
  rewardXp := command.rewardXp.getD settings.rewardXp

structure CreateQuizPayload where
  creatorId : Uuid
  isHidden : Bool
  initialVersion : VersionSettings
  nowIso : Int
  deriving DecidableEq

structure NewVersion where
  quizId : Uuid
  settings : VersionSettings
  createdByUserId : Uuid
  nowIso : Int
  deriving DecidableEq

def assertValidAnswerOptionsFrom (positions : List Int) (correctCount : Nat) :
    List AnswerOptionCommand → Except QuizError Unit
  | [] =>
    if correctCount ≠ 1 then
      .error (.validation quizQuestionCorrectOptionMessage "QUIZ_QUESTION_OPTION_INCORRECT_COUNT")
    else .ok ()
  | option :: options =>
    if option.position ∈ positions then
      .error (.validation "Duplicate answer option positions are not allowed"
        "QUIZ_QUESTION_OPTION_DUPLICATE_POSITION")
    else
      assertValidAnswerOptionsFrom (option.position :: positions)
        (if option.isCorrect then correctCount + 1 else correctCount) options

def assertValidAnswerOptions (options : List AnswerOptionCommand) : Except QuizError Unit :=
  assertValidAnswerOptionsFrom [] 0 options

def assertUniqueQuestionPositions (questions : List QuestionCommand) : Except QuizError Unit :=
  if (questions.map (·.position)).Nodup then .ok ()
  else .error (.validation "Duplicate question positions are not allowed"
    "QUIZ_QUESTION_DUPLICATE_POSITION")

structure RowResult where
  index : Nat
  status : Nat
  code : String
  message : String
  questionId : Option Uuid
  deriving DecidableEq

/-- What `createQuizQuestions` reports of a question that failed. -/
def RowResult.ofError (index : Nat) (e : QuizError) : RowResult :=
  match e with
  | .validation m _ => ⟨index, 422, "QUIZ_VALIDATION_FAILED", m, none⟩
  | .conflict m => ⟨index, 409, "QUIZ_QUESTION_POSITION_CONFLICT", m, none⟩
  | .notFound m => ⟨index, 404, "QUIZ_NOT_FOUND", m, none⟩
  | e => ⟨index, 422, "GLOBAL_UNKNOWN", e.message, none⟩

/-! ## Requests -/

inductive Request
  | createQuiz (payload : CreateQuizPayload)
  | createVersion (quizId : Uuid) (user : JwtPayload) (command : CreateQuizVersionCommand)
      (nowIso : Int)
  | createVersionFrom (quizId : Uuid) (user : JwtPayload) (settings : VersionSettings)
      (sourceVersionId : Uuid) (nowIso : Int)
  | nextNumber (version : NewVersion)
  | insertVersion (version : NewVersion) (versionNumber : Int)
  | updateVersion (quizId quizVersionId : Uuid) (user : JwtPayload)
      (command : UpdateQuizVersionCommand) (nowIso : Int)
  | updateVersionWrite (quizVersionId : Uuid) (settings : VersionSettings) (nowIso : Int)
  | publish (quizId quizVersionId : Uuid) (user : JwtPayload) (nowIso : Int)
  | publishCount (quizId quizVersionId : Uuid) (nowIso : Int)
  | publishTx (quizId quizVersionId : Uuid) (nowIso : Int)
  | createQuestion (quizId quizVersionId : Uuid) (user : JwtPayload) (question : QuestionCommand)
      (nowIso : Int)
  | insertQuestion (quizVersionId : Uuid) (user : JwtPayload) (question : QuestionCommand)
      (nowIso : Int)
  | createQuestions (quizId quizVersionId : Uuid) (user : JwtPayload)
      (questions : List QuestionCommand) (nowIso : Int)
  | insertQuestions (quizVersionId : Uuid) (user : JwtPayload) (questions : List QuestionCommand)
      (nowIso : Int) (rowResults : List RowResult)
  | done
  | answered (rowResults : List RowResult)
  | failed (error : QuizError)
  deriving DecidableEq

namespace Request

def isNew : Request → Bool
  | createQuiz .. | createVersion .. | updateVersion .. | publish .. => true
  | createQuestion .. | createQuestions .. => true
  | _ => false

def isOver : Request → Bool
  | done | answered _ | failed _ => true
  | _ => false

end Request

/-! ## The statements that only read -/

section Reads

variable (db : Db)

/-- `createQuizVersion`, up to the read of the source version or of the number. -/
def createQuizVersion (quizId : Uuid) (user : JwtPayload) (command : CreateQuizVersionCommand)
    (nowIso : Int) : Request :=
  match db.getActiveQuizRecordById quizId with
  | none => .failed (.notFound quizNotFoundMessage)
  | some quiz =>
    match QuizVersionPolicy.assertCanCreate (isOwner quiz.creatorId user) user with
    | .error e => .failed e
    | .ok () =>
      match command.sourceVersionId with
      | some sourceVersionId =>
        .createVersionFrom quizId user command.settings sourceVersionId nowIso
      | none => .nextNumber ⟨quizId, command.settings, user.sub, nowIso⟩

/-- Its part with a source version, up to the read of the number; every setting is in the command. -/
def createQuizVersionFrom (quizId : Uuid) (user : JwtPayload) (settings : VersionSettings)
    (sourceVersionId : Uuid) (nowIso : Int) : Request :=
  match db.getQuizVersionDetailById sourceVersionId with
  | none => .failed (.notFound "Source version not found")
  | some source =>
    if source.version.quizId ≠ quizId then .failed (.notFound "Source version not found")
    else if QuizVersionPolicy.getEditTransition source.version.status
        (isOwner source.quizCreatorId user) user = .blocked then
      .failed (.forbidden "You do not have permission to use this source version")
    else .nextNumber ⟨source.version.quizId, settings, user.sub, nowIso⟩

section

variable (quizId quizVersionId : Uuid)

section

variable (user : JwtPayload)

/-- `updateQuizVersion`, up to the read of the number or to its `UPDATE`. -/
def updateQuizVersion (command : UpdateQuizVersionCommand) (nowIso : Int) : Request :=
  match db.getQuizVersionDetailById quizVersionId with
  | none => .failed (.notFound quizVersionNotFoundMessage)
  | some detail =>
    if detail.version.quizId ≠ quizId then .failed (.notFound quizVersionNotFoundMessage)
    else
      let settings := command.over detail.version.settings
      match assertCanEditOrDraftFrom detail.version.status (isOwner detail.quizCreatorId user) user with
      | .error e => .failed e
      | .ok .draftFromPublished => .nextNumber ⟨detail.version.quizId, settings, user.sub, nowIso⟩
      | .ok _ => .updateVersionWrite quizVersionId settings nowIso

/-- `publishQuizVersion`, up to the count of the questions. -/
def publishQuizVersion (nowIso : Int) : Request :=
  match db.getQuizVersionDetailById quizVersionId with
  | none => .failed (.notFound quizVersionNotFoundMessage)
  | some detail =>
    if detail.version.quizId ≠ quizId then .failed (.notFound quizVersionNotFoundMessage)
    else if detail.version.status = .published then .done
    else
      match QuizVersionPolicy.assertCanPublish detail.version.status
        (isOwner detail.quizCreatorId user) user detail.quizIsVerified detail.quizIsHidden with
      | .error e => .failed e
      | .ok () => .publishCount detail.version.quizId quizVersionId nowIso

def assertCanCreateQuestions :
    Except QuizError Unit :=
  match db.getQuizVersionDetailById quizVersionId with
  | none => .error (.notFound quizVersionNotFoundMessage)
  | some detail =>
    if detail.version.quizId ≠ quizId then
      .error (.validation "Invalid quiz version" "QUIZ_INVALID_QUIZ_VERSION")
    else
      QuizVersionPolicy.assertCanAddQuestions detail.version.status (isOwner detail.quizCreatorId user)
        user

def createQuizQuestion (question : QuestionCommand)
    (nowIso : Int) : Request :=
  match assertCanCreateQuestions db quizId quizVersionId user with
  | .error e => .failed e
  | .ok () =>
    match assertValidAnswerOptions question.answerOptions with
    | .error e => .failed e
    | .ok () => .insertQuestion quizVersionId user question nowIso

def createQuizQuestions (questions : List QuestionCommand) (nowIso : Int) : Request :=
  match assertCanCreateQuestions db quizId quizVersionId user with
  | .error e => .failed e
  | .ok () =>
    match assertUniqueQuestionPositions questions with
    | .error e => .failed e
    | .ok () => .insertQuestions quizVersionId user questions nowIso []

end

end

end Reads

/-! ## The statements that write -/

structure Drawn where
  id : Uuid
  versionId : Uuid
  optionIds : List Uuid

def CreateQuizPayload.quiz (p : CreateQuizPayload) (quizId : Uuid) : QuizRow :=
  { quizId, creatorId := some p.creatorId, flags := { isHidden := p.isHidden }, createdAt := p.nowIso
    updatedAt := p.nowIso }

def NewVersion.row (v : NewVersion) (quizVersionId : Uuid) (versionNumber : Int) : QuizVersionRow :=
  { quizVersionId, quizId := v.quizId, versionNumber, settings := v.settings
    createdByUserId := some v.createdByUserId, createdAt := v.nowIso, updatedAt := v.nowIso }

def CreateQuizPayload.version (p : CreateQuizPayload) (quizId quizVersionId : Uuid) :
    QuizVersionRow :=
  NewVersion.row ⟨quizId, p.initialVersion, p.creatorId, p.nowIso⟩ quizVersionId 1

def QuestionCommand.row (q : QuestionCommand) (questionId quizVersionId : Uuid) (user : JwtPayload)
    (nowIso : Int) : QuizQuestionRow :=
  { questionId, quizVersionId, position := q.position, questionText := trim q.questionText
    imageUrl := normalizeNullableText q.imageUrl, createdAt := nowIso, updatedAt := nowIso
    insertedBy := user }

def QuestionCommand.options (q : QuestionCommand) (questionId : Uuid) (optionIds : List Uuid)
    (nowIso : Int) : List QuizAnswerOptionRow :=
  List.zipWith (fun option optionId =>
    { optionId, questionId, position := option.position, value := trim option.value
      isCorrect := option.isCorrect, createdAt := nowIso }) q.answerOptions optionIds

/-- The error `mapInsertError` makes of an `INSERT INTO quiz_versions` that violates a constraint. It asks
for the code only, which `resolvePgError` looks for down the causes of what was thrown. -/
def insertVersionError (db : Db) (row : QuizVersionRow) : Option QuizError :=
  if ¬ row.Valid then some (.operationFailed "Quiz version operation failed")
  else if ¬ db.NumberFree row.quizId row.versionNumber then
    some (.conflict quizVersionConflictMessage)
  else if (db.quizzes.find? row.quizId).isNone then some (.conflict quizNotFoundMessage)
  else none

/-- What `pg` says of a violated constraint. -/
structure PgError where
  code : String
  constraint : Option String

/-- What an `INSERT` throws: a `DrizzleQueryError`, which has the error of `pg` as its `cause`, or, for no
rows at all, the error of `values`. -/
inductive InsertFailure where
  | query (cause : PgError)
  | noValues

/-- `resolvePgError(error).code = '23505'`: the code is looked for down the causes. -/
def InsertFailure.isPostgresUniqueViolation : InsertFailure → Bool
  | .query cause => cause.code == "23505"
  | .noValues => false

/-- `error.constraint`, read off what is thrown and not off its cause: neither error has one. -/
def InsertFailure.constraint : InsertFailure → Option String
  | .query _ | .noValues => none

/-- `mapInsertError` of the repository of questions. -/
def mapInsertError (error : InsertFailure) : QuizError :=
  if error.isPostgresUniqueViolation ∧
      error.constraint = some "uq_quiz_questions_version_position" then
    .questionPositionConflict quizQuestionPositionConflictMessage
  else if error.isPostgresUniqueViolation ∧
      error.constraint = some "uq_quiz_answer_options_question_position" then
    .answerOptionPositionConflict quizQuestionOptionPositionConflictMessage
  else if error.isPostgresUniqueViolation ∧
      error.constraint = some "uq_quiz_answer_options_one_correct" then
    .multipleCorrectOptions quizQuestionCorrectOptionMessage
  else .operationFailed "Quiz question operation failed"

/-- Every failed `INSERT` of a question is the same to the service. -/
theorem mapInsertError_eq (error : InsertFailure) :
    mapInsertError error = .operationFailed "Quiz question operation failed" := by
  cases error <;> simp [mapInsertError, InsertFailure.constraint]

/-- What the transaction of `createQuestionWithOptions` fails with, if a row violates a constraint. -/
def questionFailure (db : Db) (question : QuizQuestionRow) (options : List QuizAnswerOptionRow) :
    Option InsertFailure :=
  if ¬ question.Valid then some (.query ⟨"23514", none⟩)
  else if ¬ db.PositionFree question.quizVersionId question.position then
    some (.query ⟨"23505", some "uq_quiz_questions_version_position"⟩)
  else if (db.quizVersions.find? question.quizVersionId).isNone then some (.query ⟨"23503", none⟩)
  else if options = [] then some .noValues
  else if ¬ ∀ option ∈ options, option.Valid then some (.query ⟨"23514", none⟩)
  else if ¬ (options.map (·.position)).Nodup then
    some (.query ⟨"23505", some "uq_quiz_answer_options_question_position"⟩)
  else if 1 < options.countP (·.isCorrect) then
    some (.query ⟨"23505", some "uq_quiz_answer_options_one_correct"⟩)
  else none

/-- The error of `createQuestionWithOptions`. -/
def insertQuestionError (db : Db) (question : QuizQuestionRow) (options : List QuizAnswerOptionRow) :
    Option QuizError :=
  (questionFailure db question options).map mapInsertError

structure Progress where
  write : Write
  request : Request

def Progress.goto (r : Request) : Progress := ⟨.nothing, r⟩

/-- `createQuestionWithOptions`: what it commits, or its error; `none` when ids were drawn that are
taken. -/
def createQuestionWithOptions (db : Db) (quizVersionId : Uuid) (user : JwtPayload)
    (question : QuestionCommand) (nowIso : Int) (d : Drawn) : Option (Except QuizError Write) :=
  let row := question.row d.id quizVersionId user nowIso
  let options := question.options d.id d.optionIds nowIso
  if d.optionIds.length ≠ question.answerOptions.length ∨ (db.quizQuestions.find? d.id).isSome ∨
      (db.quizAnswerOptions.insertAll? options).isNone then none
  else
    match insertQuestionError db row options with
    | some e => some (.error e)
    | none => some (.ok (.createQuestionWithOptions row options))

def insertQuestionsRound (db : Db) (quizVersionId : Uuid) (user : JwtPayload)
    (question : QuestionCommand) (questions : List QuestionCommand) (nowIso : Int)
    (rowResults : List RowResult) (d : Drawn) : Option Progress :=
  let next := fun result => Request.insertQuestions quizVersionId user questions nowIso
    (rowResults ++ [result])
  match assertValidAnswerOptions question.answerOptions with
  | .error e => some (.goto (next (.ofError rowResults.length e)))
  | .ok () =>
    (createQuestionWithOptions db quizVersionId user question nowIso d).map fun
      | .error e => .goto (next (.ofError rowResults.length e))
      | .ok write => ⟨write, next ⟨rowResults.length, 201, "", "", some d.id⟩⟩

/-- The next statement of a request; `none` when it is over, and for a draw of ids that are taken. -/
def Request.next (db : Db) (d : Drawn) : Request → Option Progress
  | .createQuiz p =>
    let version := p.version d.id d.versionId
    if (db.quizzes.find? d.id).isSome ∨ (db.quizVersions.find? d.versionId).isSome then none
    else if ¬ version.Valid then
      some (.goto (.failed (.operationFailed "Quiz operation failed")))
    else some ⟨.createQuizWithInitialVersion (p.quiz d.id) version, .done⟩
  | .createVersion quizId user command nowIso =>
    some (.goto (createQuizVersion db quizId user command nowIso))
  | .createVersionFrom quizId user settings sourceVersionId nowIso =>
    some (.goto (createQuizVersionFrom db quizId user settings sourceVersionId nowIso))
  | .nextNumber v => some (.goto (.insertVersion v (db.getNextVersionNumber v.quizId)))
  | .insertVersion v versionNumber =>
    let row := v.row d.versionId versionNumber
    if (db.quizVersions.find? d.versionId).isSome then none
    else
      match insertVersionError db row with
      | some e => some (.goto (.failed e))
      | none => some ⟨.insertVersion row, .done⟩
  | .updateVersion quizId quizVersionId user command nowIso =>
    some (.goto (updateQuizVersion db quizId quizVersionId user command nowIso))
  | .updateVersionWrite quizVersionId settings nowIso =>
    match db.quizVersions.find? quizVersionId with
    | none => some (.goto (.failed (.notFound quizVersionNotFoundMessage)))
    | some row =>
      if (row.setSettings settings nowIso).Valid then
        some ⟨.updateQuizVersion quizVersionId settings nowIso, .done⟩
      else some (.goto (.failed (.operationFailed "check constraint violated")))
  | .publish quizId quizVersionId user nowIso =>
    some (.goto (publishQuizVersion db quizId quizVersionId user nowIso))
  | .publishCount quizId quizVersionId nowIso =>
    if db.countQuestionsByVersionId quizVersionId < minQuestionsToPublish then
      some (.goto (.failed (.insufficientQuestions quizInsufficientQuestionsMessage)))
    else some (.goto (.publishTx quizId quizVersionId nowIso))
  | .publishTx quizId quizVersionId nowIso =>
    some ⟨.publishQuizVersionAndSetQuiz quizId quizVersionId nowIso, .done⟩
  | .createQuestion quizId quizVersionId user question nowIso =>
    some (.goto (createQuizQuestion db quizId quizVersionId user question nowIso))
  | .insertQuestion quizVersionId user question nowIso =>
    (createQuestionWithOptions db quizVersionId user question nowIso d).map fun
      | .error e => .goto (.failed e)
      | .ok write => ⟨write, .done⟩
  | .createQuestions quizId quizVersionId user questions nowIso =>
    some (.goto (createQuizQuestions db quizId quizVersionId user questions nowIso))
  | .insertQuestions _ _ [] _ rowResults => some (.goto (.answered rowResults))
  | .insertQuestions quizVersionId user (question :: questions) nowIso rowResults =>
    insertQuestionsRound db quizVersionId user question questions nowIso rowResults d
  | .done | .answered _ | .failed _ => none

/-! ## The system -/

structure State where
  db : Db
  requests : List Request

inductive Action
  | arrive (r : Request)
  | advance (i : Nat) (d : Drawn)
  | abort (i : Nat)
  | setFlags (quizId : Uuid) (flags : QuizFlags)

structure Outcome where
  write : Write
  requests : List Request

def State.outcome (s : State) : Action → Option Outcome
  | .arrive r => if r.isNew then some ⟨.nothing, s.requests ++ [r]⟩ else none
  | .advance i d => do
    let r ← s.requests[i]?
    let next ← r.next s.db d
    return ⟨next.write, s.requests.set i next.request⟩
  | .abort i => do
    let r ← s.requests[i]?
    if r.isOver then none
    else some ⟨.nothing, s.requests.set i (.failed (.operationFailed "database"))⟩
  | .setFlags quizId flags => some ⟨.setFlags quizId flags, s.requests⟩

def step (s : State) (a : Action) : Option State :=
  (s.outcome a).map fun o => ⟨s.db.apply o.write, o.requests⟩

def State.initial : State := ⟨.empty, []⟩

end QuizBackend.Quiz
