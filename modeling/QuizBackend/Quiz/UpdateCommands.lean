import QuizBackend.Quiz.Requests
import QuizBackend.Lib.Rows
import QuizBackend.Lib.Text
import Mathlib.Data.List.Sort
import Mathlib.Data.Option.Basic

/-!
# The update commands of a quiz

`updateQuiz` and `adminUpdatePrivilegedFields` of the command service, and `updateQuizWithLinks` of the
repository. A command says by its own keys which columns it names. The service hands the repository a
patch, a category and a list of tags, with `null` for a category or a list that the command does not
name; the repository tells a category that is not to be written by `undefined`, which it never gets.

The published version of the quiz in the answer, the surrogate key of `quiz_tags` and the log are left
out. Instants are milliseconds.
-/

namespace QuizBackend.Quiz.Updates

open Lib
open Attempt (JwtPayload UserRole)
open Quiz (quizNotFoundMessage)

/-! ## The command -/

inductive Field (α : Type)
  | absent
  | undefined
  | value (a : α)

namespace Field

variable {α β : Type}

def hasOwn : Field α → Bool
  | .absent => false
  | .undefined | .value _ => true

/-- What is read under the key; `none` is `undefined`. -/
def get? : Field α → Option α
  | .absent | .undefined => none
  | .value a => some a

def map (f : α → β) : Field α → Field β
  | .absent => .absent
  | .undefined => .undefined
  | .value a => .value (f a)

/-- `if (hasOwn(command, key) && command.key !== undefined)`. -/
def defined : Field α → Field α
  | .undefined => .absent
  | field => field

/-- What a column gets when the key is in a `SET`: Drizzle leaves out what is `undefined`. -/
def getD (field : Field α) (old : α) : α := field.get?.getD old

theorem getD_of_not_own {field : Field α} {old : α} (h : field.hasOwn = false) :
    field.getD old = old := by
  cases field with
  | absent => rfl
  | undefined => cases h
  | value a => cases h

@[simp] theorem hasOwn_map (f : α → β) (field : Field α) : (field.map f).hasOwn = field.hasOwn := by
  cases field <;> rfl

theorem hasOwn_of_defined {field : Field α} (h : field.defined.hasOwn = true) :
    field.hasOwn = true := by
  cases field with
  | absent => exact h
  | undefined => rfl
  | value a => rfl

end Field

structure UpdateQuizCommand where
  title : Field String := .absent
  description : Field (Option String) := .absent
  slug : Field String := .absent
  requirements : Field (Option String) := .absent
  imageUrl : Field (Option String) := .absent
  imagePublicId : Field (Option String) := .absent
  isFeatured : Field Bool := .absent
  isHidden : Field Bool := .absent
  categoryId : Field (Option String) := .absent
  tagIds : Field (Option (List String)) := .absent

structure QuizPatch where
  title : Field String := .absent
  description : Field (Option String) := .absent
  slug : Field String := .absent
  requirements : Field (Option String) := .absent
  imageUrl : Field (Option String) := .absent
  imagePublicId : Field (Option String) := .absent
  isFeatured : Field Bool := .absent
  isHidden : Field Bool := .absent

def QuizPatch.isEmpty (patch : QuizPatch) : Bool :=
  !(patch.title.hasOwn || patch.description.hasOwn || patch.slug.hasOwn || patch.requirements.hasOwn ||
    patch.imageUrl.hasOwn || patch.imagePublicId.hasOwn || patch.isFeatured.hasOwn ||
    patch.isHidden.hasOwn)

/-! ## Errors -/

inductive SqlError
  | checkViolation
  | uniqueViolation
  | foreignKeyViolation
  | invalidTextRepresentation
  | characterNotInRepertoire
  | undefinedTable (table : String)

inductive UpdateError
  | notFound (message : String)
  | forbidden (message : String)
  | validation (message : String)
  | slugConflict (message : String)
  | operationFailed (message : String)
  | database (error : SqlError)

def UpdateError.isRefusal : UpdateError → Bool
  | .notFound _ | .forbidden _ | .validation _ | .slugConflict _ => true
  | .operationFailed _ | .database _ => false

def quizForbiddenMessage := "You do not have permission to manage this quiz"
def quizSlugEmptyMessage := "Quiz slug cannot be empty"
def quizSlugInvalidMessage :=
  "Quiz slug must be lowercase and can only contain letters, numbers, and hyphens"
def quizSlugConflictMessage := "Quiz slug already exists"
def quizLinkIdsInvalidMessage := "One or more category IDs or tag IDs do not exist"

def mapQuizUpdateError : SqlError → UpdateError
  | .uniqueViolation => .slugConflict quizSlugConflictMessage
  | .foreignKeyViolation => .validation quizLinkIdsInvalidMessage
  | _ => .operationFailed "Quiz operation failed"

/-! ## Normalisation -/

def normalizeNullableText (value : Option String) : Option String :=
  value.bind fun text => if trim text = "" then none else some (trim text)

/-- `toLowerCase`, as far as it can lead to a slug: of the letters beyond ASCII, the Kelvin sign alone
becomes one that a slug may have. -/
def lowerCase (text : String) : String :=
  String.ofList (text.toList.map fun c => if c.toNat = 0x212A then 'k' else c.toLower)

def isSlugChar (c : Char) : Bool := ('a' ≤ c && c ≤ 'z') || ('0' ≤ c && c ≤ '9')

def isSlug (text : String) : Bool :=
  (text.toList.splitOn '-').all fun part => !part.isEmpty && part.all isSlugChar

def normalizeQuizSlug (slug : String) : Except UpdateError String :=
  let trimmed := lowerCase (trim slug)
  if trimmed = "" then .error (.validation quizSlugEmptyMessage)
  else if isSlug trimmed then .ok trimmed
  else .error (.validation quizSlugInvalidMessage)

def normalizeLinkIds (values : Option (List String)) : List String :=
  ((values.getD []).map trim).eraseDups

def patchSlug : Field String → Except UpdateError (Field String)
  | .value slug => (normalizeQuizSlug slug).map .value
  | _ => .ok .absent

def buildPatch (command : UpdateQuizCommand) : Except UpdateError QuizPatch :=
  (patchSlug command.slug).map fun slug =>
    { title := command.title.defined.map trim
      description := command.description.map normalizeNullableText
      slug
      requirements := command.requirements.map normalizeNullableText
      imageUrl := command.imageUrl.map normalizeNullableText
      imagePublicId := command.imagePublicId.map normalizeNullableText
      isFeatured := command.isFeatured.defined
      isHidden := command.isHidden.defined }

def buildPrivilegedPatch (command : UpdateQuizCommand) : QuizPatch :=
  { isFeatured := command.isFeatured.defined, isHidden := command.isHidden.defined }

/-! ## Tables -/

/-- A row of `quizzes`; the search vector is generated from three of its columns. -/
structure QuizRow where
  quizId : Uuid
  creatorId : Option Uuid
  title : String
  description : Option String := none
  slug : String
  requirements : Option String := none
  imageUrl : Option String := none
  imagePublicId : Option String := none
  isFeatured : Bool := false
  isHidden : Bool := false
  isVerified : Bool := false
  createdAt : Int
  updatedAt : Int
  deletedAt : Option Int := none
  publishedVersionId : Option Uuid := none
  categoryId : Option Uuid := none
  deriving DecidableEq

structure QuizTagRow where
  quizId : Uuid
  tagId : Uuid
  createdAt : Int

structure TagRow where
  tagId : Uuid
  name : String
  slug : String
  deletedAt : Option Int := none

structure Db where
  quizzes : Table Uuid QuizRow (·.quizId)
  quizTags : Table (Uuid × Uuid) QuizTagRow fun row => (row.quizId, row.tagId)
  tags : Table Uuid TagRow (·.tagId)
  categories : List Uuid

inductive QuizColumn
  | quizId
  | creatorId
  | title
  | description
  | slug
  | quizSearchVector
  | requirements
  | imageUrl
  | imagePublicId
  | isFeatured
  | isHidden
  | isVerified
  | createdAt
  | updatedAt
  | deletedAt
  | publishedVersionId
  | categoryId

/-- What stands in a column. The search vector is a function of title, description and slug: it is
given by them. -/
def QuizColumn.type : QuizColumn → Type
  | .quizId => Uuid
  | .creatorId | .publishedVersionId | .categoryId => Option Uuid
  | .title | .slug => String
  | .description | .requirements | .imageUrl | .imagePublicId => Option String
  | .quizSearchVector => String × Option String × String
  | .isFeatured | .isHidden | .isVerified => Bool
  | .createdAt | .updatedAt => Int
  | .deletedAt => Option Int

def QuizRow.cell : (c : QuizColumn) → QuizRow → c.type
  | .quizId, row => row.quizId
  | .creatorId, row => row.creatorId
  | .title, row => row.title
  | .description, row => row.description
  | .slug, row => row.slug
  | .quizSearchVector, row => (row.title, row.description, row.slug)
  | .requirements, row => row.requirements
  | .imageUrl, row => row.imageUrl
  | .imagePublicId, row => row.imagePublicId
  | .isFeatured, row => row.isFeatured
  | .isHidden, row => row.isHidden
  | .isVerified, row => row.isVerified
  | .createdAt, row => row.createdAt
  | .updatedAt, row => row.updatedAt
  | .deletedAt, row => row.deletedAt
  | .publishedVersionId, row => row.publishedVersionId
  | .categoryId, row => row.categoryId

/-! ## Reads -/

structure QuizTag where
  tagId : Uuid
  name : String
  slug : String

structure QuizReply where
  row : QuizRow
  tags : List QuizTag

namespace Db

variable (db : Db)

section

variable (quizId : Uuid)

def getActiveQuizRecordById : Option QuizRow :=
  (db.quizzes.find? quizId).filter fun quiz => quiz.deletedAt.isNone

def tagRows : List QuizTagRow :=
  db.quizTags.rows.filter fun row => row.quizId = quizId

def getTagsForQuiz : List QuizTag :=
  ((((db.tagRows quizId).filterMap fun row => db.tags.find? row.tagId).filter fun tag =>
    tag.deletedAt.isNone).insertionSort fun a b => a.name ≤ b.name).map fun tag =>
      ⟨tag.tagId, tag.name, tag.slug⟩

def getQuizById : Except UpdateError QuizReply :=
  match (db.getActiveQuizRecordById quizId).filter fun quiz => !quiz.isHidden with
  | none => .error (.notFound quizNotFoundMessage)
  | some quiz => .ok ⟨quiz, db.getTagsForQuiz quizId⟩

end

def getQuizIdBySlug (slug : String) : Except UpdateError Uuid :=
  (normalizeQuizSlug slug).bind fun normalizedSlug =>
  match db.quizzes.rows.find? fun quiz =>
    quiz.slug = normalizedSlug && quiz.deletedAt.isNone && !quiz.isHidden with
  | none => .error (.notFound quizNotFoundMessage)
  | some quiz => .ok quiz.quizId

end Db

/-! ## Writes -/

def QuizPatch.applyTo (patch : QuizPatch) (nowIso : Int) (row : QuizRow) : QuizRow :=
  { row with
    title := patch.title.getD row.title
    description := patch.description.getD row.description
    slug := patch.slug.getD row.slug
    requirements := patch.requirements.getD row.requirements
    imageUrl := patch.imageUrl.getD row.imageUrl
    imagePublicId := patch.imagePublicId.getD row.imagePublicId
    isFeatured := patch.isFeatured.getD row.isFeatured
    isHidden := patch.isHidden.getD row.isHidden
    updatedAt := nowIso }

def QuizRow.setCategory (categoryId : Option Uuid) (nowIso : Int) (row : QuizRow) : QuizRow :=
  { row with categoryId, updatedAt := nowIso }

theorem QuizPatch.applyTo_quizId (patch : QuizPatch) (nowIso : Int) (row : QuizRow) :
    (patch.applyTo nowIso row).quizId = row.quizId := rfl

theorem QuizRow.setCategory_quizId (categoryId : Option Uuid) (nowIso : Int) (row : QuizRow) :
    (row.setCategory categoryId nowIso).quizId = row.quizId := rfl

structure ColumnRef where
  table : String
  column : String

def QUIZ_COLUMNS.quizId : ColumnRef := ⟨"quizzes", "quiz_id"⟩

def uuidParam (text : String) : Except SqlError Uuid :=
  match Uuid.parse text with
  | none => .error .invalidTextRepresentation
  | some id => .ok id

/-- The same for one that may be `null`. -/
def uuidParam? : Option String → Except SqlError (Option Uuid)
  | none => .ok none
  | some text => (uuidParam text).map some

def QuizRow.texts (row : QuizRow) : List String :=
  [row.title, row.slug] ++
    [row.description, row.requirements, row.imageUrl, row.imagePublicId].filterMap id

def QuizRow.hasNul (row : QuizRow) : Bool :=
  row.texts.any fun text => text.toList.any fun c => c.toNat = 0

def isTitleBlank (title : String) : Bool := title.toList.all (· = ' ')

namespace Db

variable (db : Db)

def slugTaken (quizId : Uuid) (slug : String) : Bool :=
  db.quizzes.rows.any fun row => row.slug = slug && row.deletedAt.isNone && row.quizId ≠ quizId

/-- The constraint that the new version of a row breaks; a column that keeps its value has been checked
when it got it. -/
def violation? (old new : QuizRow) : Option SqlError :=
  if new.hasNul ∧ !old.hasNul then some .characterNotInRepertoire
  else if new.title ≠ old.title ∧ isTitleBlank new.title then some .checkViolation
  else if new.slug ≠ old.slug ∧ !isSlug new.slug then some .checkViolation
  else if new.slug ≠ old.slug ∧ db.slugTaken old.quizId new.slug then some .uniqueViolation
  else if new.categoryId ≠ old.categoryId ∧ new.categoryId.any fun c => c ∉ db.categories then
    some .foreignKeyViolation
  else none

/-- `UPDATE quizzes … WHERE quiz_id = quizId AND deleted_at IS NULL`. -/
def updateQuizRow (quizId : Uuid) (set : QuizRow → QuizRow) (hset : ∀ row, (set row).quizId = row.quizId) :
    Except SqlError Db :=
  match db.getActiveQuizRecordById quizId with
  | none => .ok db
  | some quiz =>
    match db.violation? quiz (set quiz) with
    | some e => .error e
    | none => .ok { db with quizzes := db.quizzes.modify quizId set hset }

/-- `DELETE FROM quiz_tags WHERE column = quizId`: the statement knows the columns of `quiz_tags`. -/
def deleteQuizTags (column : ColumnRef) (quizId : Uuid) : Except SqlError Db :=
  if column.table = "quiz_tags" then
    .ok { db with quizTags := db.quizTags.deleteWhere fun row => row.quizId = quizId }
  else .error (.undefinedTable column.table)

def insertQuizTags (quizId : Uuid) (tagIds : List String) (nowIso : Int) : Except SqlError Db :=
  (tagIds.mapM uuidParam).bind fun ids =>
  match db.quizTags.insertAll? (ids.map fun tagId => ⟨quizId, tagId, nowIso⟩) with
  | none => .error .uniqueViolation
  | some quizTags =>
    if (db.quizzes.find? quizId).isNone || ids.any fun id => (db.tags.find? id).isNone then
      .error .foreignKeyViolation
    else .ok { db with quizTags }

end Db

/-- The parameters of `updateQuizWithLinks`. The outer `none` of `categoryId` is `undefined`. -/
structure UpdateParams where
  quizId : Uuid
  patch : QuizPatch
  categoryId : Option (Option String)
  tagIds : Option (List String)
  nowIso : Int

namespace UpdateParams

variable (params : UpdateParams) (db : Db)

def writePatch : Except SqlError Db :=
  if params.patch.isEmpty then .ok db
  else db.updateQuizRow params.quizId (params.patch.applyTo params.nowIso)
    (params.patch.applyTo_quizId params.nowIso)

def writeCategory : Except SqlError Db :=
  match params.categoryId with
  | none => .ok db
  | some text =>
    (uuidParam? text).bind fun categoryId =>
    db.updateQuizRow params.quizId (·.setCategory categoryId params.nowIso)
      (QuizRow.setCategory_quizId categoryId params.nowIso)

def writeTags : Except SqlError Db :=
  match params.tagIds with
  | none => .ok db
  | some tagIds =>
    (db.deleteQuizTags QUIZ_COLUMNS.quizId params.quizId).bind fun db =>
    if tagIds = [] then .ok db else db.insertQuizTags params.quizId tagIds params.nowIso

def writes : Except SqlError Db :=
  (params.writePatch db).bind fun db => (params.writeCategory db).bind params.writeTags

end UpdateParams

/-- `updateQuizWithLinks`: the answer and the database behind the transaction. -/
def updateQuizWithLinks (params : UpdateParams) (db : Db) :
    Except UpdateError (Option QuizReply) × Db :=
  match params.writes db with
  | .error e => (.error (mapQuizUpdateError e), db)
  | .ok db =>
    (.ok ((db.getActiveQuizRecordById params.quizId).map fun quiz =>
      ⟨quiz, db.getTagsForQuiz params.quizId⟩), db)

/-! ## The service -/

structure QuizUpdatedEvent where
  quizId : Uuid
  updatedByUserId : String
  nowIso : Int

structure Outcome where
  reply : Except UpdateError QuizReply
  events : List QuizUpdatedEvent
  db : Db

/-- The replica, which the service reads from: at its check and when it fetches the quiz again. It need
not show what the primary has. -/
structure Replica where
  atCheck : Db
  atRefetch : Db

def canEditAny (role : UserRole) : Bool := role = .admin

def canEdit (quizCreatorId : Option Uuid) (user : JwtPayload) : Bool :=
  isOwner quizCreatorId user || canEditAny user.role

section Service

variable (replica : Replica) (command : UpdateQuizCommand) (nowIso : Int) (db : Db)

def refetchQuiz (quizId : Uuid) : Outcome := ⟨replica.atRefetch.getQuizById quizId, [], db⟩

def saveQuiz (updatedByUserId : String) (params : UpdateParams) : Outcome :=
  match updateQuizWithLinks params db with
  | (.error e, db) => ⟨.error e, [], db⟩
  | (.ok none, db) => refetchQuiz replica db params.quizId
  | (.ok (some reply), db) => ⟨.ok reply, [⟨params.quizId, updatedByUserId, params.nowIso⟩], db⟩

def updateParams (quizId : Uuid) (patch : QuizPatch) : UpdateParams where
  quizId
  patch
  categoryId := some (if command.categoryId.hasOwn then command.categoryId.get?.join else none)
  tagIds :=
    if command.tagIds.hasOwn then some (normalizeLinkIds command.tagIds.get?.join) else none
  nowIso

/-- `updateQuiz`, for a `quizId` that can be read as a UUID. -/
def updateQuizById (quizId : Uuid) (user : JwtPayload) : Outcome :=
  match replica.atCheck.getActiveQuizRecordById quizId with
  | none => ⟨.error (.notFound quizNotFoundMessage), [], db⟩
  | some quiz =>
    if canEdit quiz.creatorId user then
      match buildPatch command with
      | .error e => ⟨.error e, [], db⟩
      | .ok patch =>
        if patch.isEmpty && !command.categoryId.hasOwn && !command.tagIds.hasOwn then
          refetchQuiz replica db quizId
        else saveQuiz replica db user.sub.text (updateParams command nowIso quizId patch)
    else ⟨.error (.forbidden quizForbiddenMessage), [], db⟩

/-- `updateQuiz`. The route lets a slug pass, and the read of the record does not. -/
def updateQuiz (quizId : String) (user : JwtPayload) : Outcome :=
  match Uuid.parse quizId with
  | none => ⟨.error (.database .invalidTextRepresentation), [], db⟩
  | some quizId => updateQuizById replica command nowIso db quizId user

def isUuid (text : String) : Bool :=
  text.toList.length = 36 && text.toList.all fun c => (hexDigit? c).isSome || c = '-'

def Replica.resolveQuiz (quizIdOrSlug : String) : Except UpdateError Uuid :=
  if isUuid quizIdOrSlug then
    match Uuid.parse quizIdOrSlug with
    | none => .error (.database .invalidTextRepresentation)
    | some quizId =>
      match replica.atCheck.getActiveQuizRecordById quizId with
      | none => .error (.notFound quizNotFoundMessage)
      | some quiz => .ok quiz.quizId
  else replica.atCheck.getQuizIdBySlug quizIdOrSlug

/-- What `adminUpdatePrivilegedFields` hands the repository. -/
def privilegedParams (quizId : Uuid) : UpdateParams where
  quizId
  patch := buildPrivilegedPatch command
  categoryId := some none
  tagIds := none
  nowIso

def adminUpdateById (quizId : Uuid) : Outcome :=
  if (buildPrivilegedPatch command).isEmpty then refetchQuiz replica db quizId
  else saveQuiz replica db "admin" (privilegedParams command nowIso quizId)

def adminUpdatePrivilegedFields (quizIdOrSlug : String) : Outcome :=
  match replica.resolveQuiz quizIdOrSlug with
  | .error e => ⟨.error e, [], db⟩
  | .ok quizId => adminUpdateById replica command nowIso db quizId

end Service

end QuizBackend.Quiz.Updates
