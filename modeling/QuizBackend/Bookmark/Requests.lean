import QuizBackend.Lib.Run
import QuizBackend.Lib.Table
import QuizBackend.Lib.UniqueTable

/-!
# Requests to the bookmarks

A collection of a user contains quizzes. The requests are those of `BookmarkCommandService` that add
a quiz to a collection, take one or several out of it, and move one to another collection. What a
service checks before it writes are reads of their own, and between any two statements anything may
happen.

The transaction that moves a bookmark is READ COMMITTED: it looks for the bookmark with a plain
`SELECT`, deletes it and inserts a new one. A `DELETE` sees the rows that were there when it began,
waits where another transaction has deleted one and not committed, and then deletes those that are
still there. An `INSERT` waits for the transaction that is deleting the row in its way. What is
written inside a transaction is seen by others after its commit only, so the rows below are the
committed ones, and the lock of a transaction is in the phase of its request.
-/

namespace QuizBackend.Bookmark

open Lib

/-! ## Tables -/

structure BookmarkCollection where
  collectionId : String
  userId : String

structure BookmarkedQuiz where
  bookmarkId : String
  collectionId : String
  quizId : String
  notes : Option String
  bookmarkedAt : Int
  updatedAt : Int
  deriving DecidableEq

def BookmarkedQuiz.pair (b : BookmarkedQuiz) : Option (String × String) :=
  some (b.collectionId, b.quizId)

abbrev Bookmarks :=
  UniqueTable String (String × String) BookmarkedQuiz (·.bookmarkId) BookmarkedQuiz.pair

def getBookmarkedQuiz (bookmarks : Bookmarks) (collectionId quizId : String) :
    Option BookmarkedQuiz :=
  bookmarks.rows.find? fun b => decide (b.collectionId = collectionId) && decide (b.quizId = quizId)

theorem getBookmarkedQuiz_eq_none_iff {bookmarks : Bookmarks} {collectionId quizId : String} :
    getBookmarkedQuiz bookmarks collectionId quizId = none ↔
      ∀ b ∈ bookmarks.rows, ¬ (b.collectionId = collectionId ∧ b.quizId = quizId) := by
  simp [getBookmarkedQuiz]

/-! ## Errors -/

inductive BookmarkError where
  | collectionNotFound (message : String)
  | collectionForbidden (message : String)
  | bookmarkNotFound (message : String)
  | bookmarkConflict (message : String)
  | validation (message : String)
  | quizNotFound (message : String)
  | database
  deriving DecidableEq

def collectionNotFoundMessage : String := "Bookmark collection not found"
def collectionForbiddenMessage : String := "You do not have permission to manage this collection"
def bookmarkNotFoundMessage : String := "Bookmark not found"
def bookmarkQuizAlreadyExistsMessage : String :=
  "This quiz is already bookmarked in this collection"
def bookmarkMoveSameCollectionMessage : String :=
  "Source and target collections must be different"

/-! ## The checks of the service -/

structure JwtPayload where
  sub : String
  role : String
  deriving DecidableEq

/-- `getOwnedCollectionOrThrow`, on what `getCollectionById` has found. -/
def getOwnedCollectionOrThrow (collection : Option BookmarkCollection) (user : JwtPayload) :
    Except BookmarkError BookmarkCollection :=
  match collection with
  | none => .error (.collectionNotFound collectionNotFoundMessage)
  | some collection =>
    if collection.userId ≠ user.sub ∧ user.role ≠ "admin" then
      .error (.collectionForbidden collectionForbiddenMessage)
    else .ok collection

/-- `assertBulkInputValid`; that the ids are strings is their type. -/
def assertBulkInputValid (quizIds : List String) (op : String) : Except BookmarkError Unit :=
  if quizIds.length = 0 then .error (.validation s!"{op} requires at least one quizId")
  else if 100 < quizIds.length then
    .error (.validation s!"{op} cannot process more than 100 quizIds per request")
  else if quizIds.any (· = "") then
    .error (.validation s!"{op} received empty or non-string quizIds")
  else .ok ()

/-! ## Requests -/

inductive Request where
  | add (collectionId quizId : String) (notes : Option String) (user : JwtPayload)
  | remove (collectionId quizId : String) (user : JwtPayload)
  | removeBulk (userId collectionId : String) (quizIds : List String)
  | move (userId sourceCollectionId targetCollectionId quizId : String)
  deriving DecidableEq

inductive Value where
  | added (bookmark : BookmarkedQuiz)
  | removed
  | removedCount (n : Nat)
  | moved
  deriving DecidableEq

inductive BookmarkEvent where
  | added (bookmarkId collectionId quizId userId : String) (nowIso : Int)
  | removed (bookmarkId collectionId quizId userId : String) (nowIso : Int)

inductive Phase where
  | begun
  | owned
  | targetOwned
  /-- The service lets the request write; `removeBookmark` has read this bookmark. -/
  | checked (existing : Option String)
  | selected
  | deleting (seen : List String) (existing : Option String)
  | deleted (locked : Option String)
  deriving DecidableEq

structure Call where
  callId : String
  request : Request
  phase : Phase

namespace Request

def firstCollection : Request → String × JwtPayload
  | .add collectionId _ _ user => (collectionId, user)
  | .remove collectionId _ user => (collectionId, user)
  | .removeBulk userId collectionId _ => (collectionId, ⟨userId, "user"⟩)
  | .move userId sourceCollectionId _ _ => (sourceCollectionId, ⟨userId, "user"⟩)

/-- Where a request is when it owns this collection; a bulk removal checks nothing else. -/
def ownedPhase : Request → Phase
  | .removeBulk .. => .checked none
  | _ => .owned

def validate : Request → Except BookmarkError Unit
  | .removeBulk _ _ quizIds => assertBulkInputValid quizIds "removeBookmarksBulk"
  | .move _ sourceCollectionId targetCollectionId _ =>
    if sourceCollectionId = targetCollectionId then
      .error (.bookmarkConflict bookmarkMoveSameCollectionMessage)
    else .ok ()
  | _ => .ok ()

def deletes (b : BookmarkedQuiz) : Request → Bool
  | .add .. => false
  | .remove collectionId quizId _ | .move _ collectionId _ quizId =>
    decide (b.collectionId = collectionId) && decide (b.quizId = quizId)
  | .removeBulk _ collectionId quizIds =>
    decide (b.collectionId = collectionId) && decide (b.quizId ∈ quizIds.dedup)

end Request

/-! ## The system -/

structure System where
  collections : Table String BookmarkCollection (·.collectionId)
  quizzes : List String
  bookmarks : Bookmarks
  calls : Table String Call (·.callId)
  answers : List (String × Except BookmarkError Value)
  events : List BookmarkEvent

inductive Action where
  | begin (callId : String) (request : Request)
  | read (callId : String)
  | select (callId : String)
  | deleteStart (callId : String)
  | deleteEnd (callId : String) (nowIso : Int)
  | insert (callId bookmarkId : String) (nowIso : Int)
  | abort (callId : String)

def Action.callId : Action → String
  | .begin callId _ | .read callId | .select callId | .deleteStart callId | .deleteEnd callId _
  | .insert callId _ _ | .abort callId => callId

namespace System

def start (collections : Table String BookmarkCollection (·.collectionId)) (quizzes : List String)
    (bookmarks : Bookmarks) : System :=
  ⟨collections, quizzes, bookmarks, .empty _, [], []⟩

def answer (s : System) (callId : String) (result : Except BookmarkError Value) : System :=
  { s with calls := s.calls.erase callId, answers := s.answers ++ [(callId, result)] }

def advance (s : System) (callId : String) (phase : Phase) : System :=
  { s with calls := s.calls.modify callId (fun c => { c with phase }) fun _ => rfl }

def guarded {α : Type} (s : System) (callId : String) (check : Except BookmarkError α)
    (phase : Phase) : System :=
  match check with
  | .error e => s.answer callId (.error e)
  | .ok _ => s.advance callId phase

section

variable (s : System)

def lockedByOther (callId : String) (b : BookmarkedQuiz) : Bool :=
  s.calls.rows.any fun c =>
    decide (c.callId ≠ callId) && decide (c.phase = .deleted (some b.bookmarkId))

def begin (callId : String) (request : Request) : Option System :=
  (s.calls.insert? ⟨callId, request, .begun⟩).map fun calls =>
    match request.validate with
    | .error e => { s with answers := s.answers ++ [(callId, .error e)] }
    | .ok _ => { s with calls }

/-- The reads of `addBookmark`, `removeBookmark`, `removeBookmarksBulk` and `moveBookmark`, one by
one. `moveBookmark` writes its ownership checks out, without the exception for administrators. -/
def read (c : Call) : Option System :=
  match c.phase, c.request with
  | .begun, request =>
    let (collectionId, user) := request.firstCollection
    some (s.guarded c.callId (getOwnedCollectionOrThrow (s.collections.find? collectionId) user)
      request.ownedPhase)
  | .owned, .add _ quizId _ _ =>
    if quizId ∈ s.quizzes then some (s.advance c.callId (.checked none))
    else some (s.answer c.callId (.error (.quizNotFound "Quiz not found")))
  | .owned, .remove collectionId quizId _ =>
    match getBookmarkedQuiz s.bookmarks collectionId quizId with
    | none => some (s.answer c.callId (.error (.bookmarkNotFound bookmarkNotFoundMessage)))
    | some existing => some (s.advance c.callId (.checked (some existing.bookmarkId)))
  | .owned, .move userId _ targetCollectionId _ =>
    some (s.guarded c.callId
      (getOwnedCollectionOrThrow (s.collections.find? targetCollectionId) ⟨userId, "user"⟩)
      .targetOwned)
  | .targetOwned, .move _ _ targetCollectionId quizId =>
    match getBookmarkedQuiz s.bookmarks targetCollectionId quizId with
    | some _ =>
      some (s.answer c.callId (.error (.bookmarkConflict bookmarkQuizAlreadyExistsMessage)))
    | none => some (s.advance c.callId (.checked none))
  | _, _ => none

/-- The first statement of the repository's `moveBookmark`, with `verifySource` as the service sets
it. -/
def select (c : Call) : Option System :=
  match c.phase, c.request with
  | .checked _, .move _ sourceCollectionId _ quizId =>
    match getBookmarkedQuiz s.bookmarks sourceCollectionId quizId with
    | none => some (s.answer c.callId (.error (.bookmarkNotFound bookmarkNotFoundMessage)))
    | some _ => some (s.advance c.callId .selected)
  | _, _ => none

def seenBy (request : Request) : List String :=
  (s.bookmarks.rows.filter fun b => request.deletes b).map (·.bookmarkId)

def deleteStart (c : Call) : Option System :=
  match c.phase, c.request with
  | .checked existing, .remove .. | .checked existing, .removeBulk .. =>
    some (s.advance c.callId (.deleting (s.seenBy c.request) existing))
  | .selected, .move .. => some (s.advance c.callId (.deleting (s.seenBy c.request) none))
  | _, _ => none

def doomed (request : Request) (seen : List String) : List BookmarkedQuiz :=
  s.bookmarks.rows.filter fun b => decide (b.bookmarkId ∈ seen) && request.deletes b

/-- The statements `removeBookmark` and `removeBookmarksBulk` of the repository, and what the service
does after them. -/
def remove (c : Call) (doomed : List BookmarkedQuiz) (value : Value)
    (events : List BookmarkEvent) : System :=
  { s.answer c.callId (.ok value) with
    bookmarks := s.bookmarks.deleteWhere fun b => decide (b ∈ doomed)
    events := s.events ++ events }

/-- A `DELETE` whose rows are free. The one of a move stays uncommitted; how many rows it has deleted
is not looked at. -/
def deleteEnd (c : Call) (nowIso : Int) : Option System :=
  match c.phase with
  | .deleting seen existing =>
    let doomed := s.doomed c.request seen
    if doomed.any (s.lockedByOther c.callId) then none
    else
      match c.request with
      | .add .. => none
      | .remove collectionId quizId user =>
        some (s.remove c doomed .removed
          (existing.map fun bookmarkId =>
            .removed bookmarkId collectionId quizId user.sub nowIso).toList)
      | .removeBulk userId collectionId _ =>
        some (s.remove c doomed (.removedCount doomed.length)
          (doomed.map fun b => .removed b.bookmarkId collectionId b.quizId userId nowIso))
      | .move .. => some (s.advance c.callId (.deleted (doomed.head?.map (·.bookmarkId))))
  | _ => none

/-- The `INSERT` of `addQuizToCollection`, and what `addBookmark` makes of its outcome. -/
def insertAdded (callId collectionId : String) (user : JwtPayload)
    (b : BookmarkedQuiz) : System :=
  match s.bookmarks.insert? b with
  | none => s.answer callId (.error (.bookmarkConflict bookmarkQuizAlreadyExistsMessage))
  | some bookmarks =>
    { s.answer callId (.ok (.added b)) with
      bookmarks
      events := s.events ++ [.added b.bookmarkId collectionId b.quizId user.sub b.bookmarkedAt] }

/-- The `INSERT` of a move and its commit; a violation rolls the transaction back. -/
def insertMoved (callId : String) (locked : Option String) (b : BookmarkedQuiz) :
    System :=
  match (s.bookmarks.deleteWhere fun x => decide (locked = some x.bookmarkId)).insert? b with
  | none => s.answer callId (.error .database)
  | some bookmarks => { s.answer callId (.ok .moved) with bookmarks }

/-- The key the database draws is new, and no other transaction is deleting the row in the way. -/
def mayInsert (callId bookmarkId collectionId quizId : String) : Bool :=
  (s.bookmarks.find? bookmarkId).isNone &&
    !(getBookmarkedQuiz s.bookmarks collectionId quizId).any (s.lockedByOther callId)

def insert (c : Call) (bookmarkId : String) (nowIso : Int) : Option System :=
  match c.phase, c.request with
  | .checked _, .add collectionId quizId notes user =>
    if s.mayInsert c.callId bookmarkId collectionId quizId then
      some (s.insertAdded c.callId collectionId user
        ⟨bookmarkId, collectionId, quizId, notes, nowIso, nowIso⟩)
    else none
  | .deleted locked, .move _ _ targetCollectionId quizId =>
    if s.mayInsert c.callId bookmarkId targetCollectionId quizId then
      -- no notes among the values: the column is left at its default
      some (s.insertMoved c.callId locked
        ⟨bookmarkId, targetCollectionId, quizId, none, nowIso, nowIso⟩)
    else none
  | _, _ => none

def step : Action → Option System
  | .begin callId request => s.begin callId request
  | .read callId => (s.calls.find? callId).bind s.read
  | .select callId => (s.calls.find? callId).bind s.select
  | .deleteStart callId => (s.calls.find? callId).bind s.deleteStart
  | .deleteEnd callId nowIso => (s.calls.find? callId).bind fun c => s.deleteEnd c nowIso
  | .insert callId bookmarkId nowIso =>
    (s.calls.find? callId).bind fun c => s.insert c bookmarkId nowIso
  | .abort callId =>
    (s.calls.find? callId).map fun _ => s.answer callId (.error .database)

end

end System

end QuizBackend.Bookmark
