import QuizBackend.Attempt.Requests

/-!
# The tables of quiz authoring

Quizzes, their versions, the questions of a version and the options of a question, with the
constraints of the schema that are not foreign keys to other modules, and the writes of the
repositories: one definition for each committed change, under the name of the method that makes it.
What a write does not check has been checked by the statement that makes it (`Quiz.Requests`).

Title, slug, description, images, category and tags of a quiz, the counters of its statistics and the
Cloudinary id of a question's image are left out. Instants are milliseconds.
-/

namespace QuizBackend.Quiz

open Lib
open Attempt (JwtPayload UserRole)

/-! ## Rows -/

inductive QuizVersionStatus
  | draft
  | published
  | archived
  deriving DecidableEq

inductive QuizDifficulty
  | easy
  | medium
  | hard
  deriving DecidableEq

structure QuizFlags where
  isVerified : Bool := false
  isHidden : Bool := false
  isDeleted : Bool := false

structure QuizRow where
  quizId : Uuid
  creatorId : Option Uuid
  flags : QuizFlags
  publishedVersionId : Option Uuid := none
  createdAt : Int
  updatedAt : Int

structure VersionSettings where
  difficulty : QuizDifficulty
  durationMs : Int
  passingScorePercent : Int
  rewardXp : Int
  deriving DecidableEq

structure QuizVersionRow where
  quizVersionId : Uuid
  quizId : Uuid
  versionNumber : Int
  status : QuizVersionStatus := .draft
  settings : VersionSettings
  createdByUserId : Option Uuid
  createdAt : Int
  publishedAt : Option Int := none
  archivedAt : Option Int := none
  updatedAt : Int

/-- A row of `quiz_questions`. `insertedBy` is a ghost: the user of the request that inserted it. -/
structure QuizQuestionRow where
  questionId : Uuid
  quizVersionId : Uuid
  position : Int
  questionText : String
  imageUrl : Option String
  createdAt : Int
  updatedAt : Int
  insertedBy : JwtPayload

structure QuizAnswerOptionRow where
  optionId : Uuid
  questionId : Uuid
  position : Int
  value : String
  isCorrect : Bool
  createdAt : Int

structure Db where
  quizzes : Table Uuid QuizRow (·.quizId)
  quizVersions : Table Uuid QuizVersionRow (·.quizVersionId)
  quizQuestions : Table Uuid QuizQuestionRow (·.questionId)
  quizAnswerOptions : Table Uuid QuizAnswerOptionRow (·.optionId)

def Db.empty : Db := ⟨Table.empty _, Table.empty _, Table.empty _, Table.empty _⟩

/-! ## Constraints -/

/-- The check constraints and the column types. -/
def QuizVersionRow.Valid (row : QuizVersionRow) : Prop :=
  0 < row.settings.durationMs ∧ IsInt4 row.settings.durationMs ∧
    0 ≤ row.settings.passingScorePercent ∧ row.settings.passingScorePercent ≤ 100 ∧
    0 ≤ row.settings.rewardXp ∧ IsInt4 row.settings.rewardXp ∧
    0 < row.versionNumber ∧ IsInt4 row.versionNumber

instance (row : QuizVersionRow) : Decidable row.Valid :=
  inferInstanceAs (Decidable (_ ∧ _ ∧ _ ∧ _ ∧ _ ∧ _ ∧ _ ∧ _))

/-- The unique key lets the number in. -/
def Db.NumberFree (db : Db) (quizId : Uuid) (versionNumber : Int) : Prop :=
  ∀ row ∈ db.quizVersions.rows, row.quizId = quizId → row.versionNumber ≠ versionNumber

instance (db : Db) (quizId : Uuid) (versionNumber : Int) : Decidable (db.NumberFree quizId versionNumber) :=
  inferInstanceAs (Decidable (∀ row ∈ db.quizVersions.rows, _ → _))

/-- The checks of `quiz_questions`; the text has been trimmed. -/
def QuizQuestionRow.Valid (row : QuizQuestionRow) : Prop :=
  0 < row.position ∧ IsInt4 row.position ∧ row.questionText ≠ ""

instance (row : QuizQuestionRow) : Decidable row.Valid :=
  inferInstanceAs (Decidable (_ ∧ _ ∧ _))

def Db.PositionFree (db : Db) (quizVersionId : Uuid) (position : Int) : Prop :=
  ∀ row ∈ db.quizQuestions.rows, row.quizVersionId = quizVersionId → row.position ≠ position

instance (db : Db) (quizVersionId : Uuid) (position : Int) :
    Decidable (db.PositionFree quizVersionId position) :=
  inferInstanceAs (Decidable (∀ row ∈ db.quizQuestions.rows, _ → _))

def QuizAnswerOptionRow.Valid (row : QuizAnswerOptionRow) : Prop :=
  0 < row.position ∧ IsInt4 row.position ∧ row.value ≠ ""

instance (row : QuizAnswerOptionRow) : Decidable row.Valid :=
  inferInstanceAs (Decidable (_ ∧ _ ∧ _))

/-! ## Reads -/

structure QuizVersionDetail where
  version : QuizVersionRow
  quizCreatorId : Option Uuid
  quizIsVerified : Bool
  quizIsHidden : Bool

namespace Db

variable (db : Db)

def getQuizVersionDetailById (quizVersionId : Uuid) : Option QuizVersionDetail :=
  (db.quizVersions.find? quizVersionId).bind fun version =>
  (db.quizzes.find? version.quizId).bind fun quiz =>
  if quiz.flags.isDeleted then none
  else some ⟨version, quiz.creatorId, quiz.flags.isVerified, quiz.flags.isHidden⟩

def getActiveQuizRecordById (quizId : Uuid) : Option QuizRow :=
  (db.quizzes.find? quizId).filter fun quiz => !quiz.flags.isDeleted

def versionNumbers (quizId : Uuid) : List Int :=
  (db.quizVersions.rows.filter fun row => row.quizId = quizId).map (·.versionNumber)

def getNextVersionNumber (quizId : Uuid) : Int :=
  (db.versionNumbers quizId).foldl max 0 + 1

def countQuestionsByVersionId (quizVersionId : Uuid) : Nat :=
  db.quizQuestions.rows.countP fun row => row.quizVersionId = quizVersionId

end Db

/-! ## Writes -/

inductive Write
  | nothing
  | createQuizWithInitialVersion (quiz : QuizRow) (version : QuizVersionRow)
  | insertVersion (row : QuizVersionRow)
  | updateQuizVersion (quizVersionId : Uuid) (settings : VersionSettings) (nowIso : Int)
  | publishQuizVersionAndSetQuiz (quizId quizVersionId : Uuid) (nowIso : Int)
  | createQuestionWithOptions (question : QuizQuestionRow) (options : List QuizAnswerOptionRow)
  | setFlags (quizId : Uuid) (flags : QuizFlags)

def QuizVersionRow.setSettings (settings : VersionSettings) (nowIso : Int) (row : QuizVersionRow) :
    QuizVersionRow :=
  { row with settings, updatedAt := nowIso }

/-- The first `UPDATE` of the transaction, on a row of `quiz_versions`. -/
def QuizVersionRow.archiveOther (quizId quizVersionId : Uuid) (nowIso : Int) (row : QuizVersionRow) :
    QuizVersionRow :=
  if row.quizId = quizId ∧ row.status = .published ∧ row.quizVersionId ≠ quizVersionId then
    { row with status := .archived, archivedAt := some nowIso, updatedAt := nowIso }
  else row

def QuizVersionRow.setPublished (nowIso : Int) (row : QuizVersionRow) : QuizVersionRow :=
  { row with status := .published, publishedAt := some nowIso, archivedAt := none
             updatedAt := nowIso }

def QuizRow.setPublishedVersion (quizVersionId : Uuid) (nowIso : Int) (row : QuizRow) : QuizRow :=
  { row with publishedVersionId := some quizVersionId, updatedAt := nowIso }

def QuizRow.setFlags (flags : QuizFlags) (row : QuizRow) : QuizRow := { row with flags }

theorem QuizVersionRow.setSettings_quizVersionId (settings : VersionSettings) (nowIso : Int)
    (row : QuizVersionRow) : (row.setSettings settings nowIso).quizVersionId = row.quizVersionId := rfl

theorem QuizVersionRow.setPublished_quizVersionId (nowIso : Int) (row : QuizVersionRow) :
    (row.setPublished nowIso).quizVersionId = row.quizVersionId := rfl

theorem QuizRow.setPublishedVersion_quizId (quizVersionId : Uuid) (nowIso : Int) (row : QuizRow) :
    (row.setPublishedVersion quizVersionId nowIso).quizId = row.quizId := rfl

theorem QuizRow.setFlags_quizId (flags : QuizFlags) (row : QuizRow) :
    (row.setFlags flags).quizId = row.quizId := rfl

theorem QuizVersionRow.archiveOther_quizVersionId (quizId quizVersionId : Uuid) (nowIso : Int)
    (row : QuizVersionRow) :
    (row.archiveOther quizId quizVersionId nowIso).quizVersionId = row.quizVersionId := by
  unfold archiveOther
  split <;> rfl

def Db.archiveOthers (db : Db) (quizId quizVersionId : Uuid) (nowIso : Int) : Db :=
  { db with
    quizVersions := db.quizVersions.update (·.archiveOther quizId quizVersionId nowIso)
      (QuizVersionRow.archiveOther_quizVersionId quizId quizVersionId nowIso) }

def Db.publishDraft (db : Db) (quizId quizVersionId : Uuid) (nowIso : Int) : Db :=
  { db with
    quizVersions := db.quizVersions.modify quizVersionId (·.setPublished nowIso)
      (QuizVersionRow.setPublished_quizVersionId nowIso)
    quizzes := db.quizzes.modify quizId (·.setPublishedVersion quizVersionId nowIso)
      (QuizRow.setPublishedVersion_quizId quizVersionId nowIso) }

/-- The transaction: it archives whatever else is published before it knows whether its target is a
draft, and commits that also when it is not. -/
def Db.publishQuizVersionAndSetQuiz (db : Db) (quizId quizVersionId : Uuid) (nowIso : Int) : Db :=
  match db.quizVersions.find? quizVersionId with
  | none => db
  | some target =>
    if target.quizId ≠ quizId then db
    else if target.status = .draft then
      (db.archiveOthers quizId quizVersionId nowIso).publishDraft quizId quizVersionId nowIso
    else db.archiveOthers quizId quizVersionId nowIso

def Db.apply (db : Db) : Write → Db
  | .nothing => db
  | .createQuizWithInitialVersion quiz version =>
    { db with
      quizzes := (db.quizzes.insert? quiz).getD db.quizzes
      quizVersions := (db.quizVersions.insert? version).getD db.quizVersions }
  | .insertVersion row =>
    { db with quizVersions := (db.quizVersions.insert? row).getD db.quizVersions }
  | .updateQuizVersion quizVersionId settings nowIso =>
    { db with
      quizVersions := db.quizVersions.modify quizVersionId (·.setSettings settings nowIso)
        (QuizVersionRow.setSettings_quizVersionId settings nowIso) }
  | .publishQuizVersionAndSetQuiz quizId quizVersionId nowIso =>
    db.publishQuizVersionAndSetQuiz quizId quizVersionId nowIso
  | .createQuestionWithOptions question options =>
    { db with
      quizQuestions := (db.quizQuestions.insert? question).getD db.quizQuestions
      quizAnswerOptions := (db.quizAnswerOptions.insertAll? options).getD db.quizAnswerOptions }
  | .setFlags quizId flags =>
    { db with quizzes := db.quizzes.modify quizId (·.setFlags flags) (QuizRow.setFlags_quizId flags) }

end QuizBackend.Quiz
