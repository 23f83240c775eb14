import QuizBackend.Lib.Run
import QuizBackend.Review.Tables

/-!
# Deleting a review

Three requests delete a review: its author's `deleteReview`, `adminDeleteReview`, and
`updateReportStatus` of `ReviewAdminService` when a report of it is answered with `actioned`. Each
reads, one query after the other, then writes in a READ COMMITTED transaction, and dispatches an event
when that has been committed. Between any two statements anything may happen.

What a transaction has written is seen by itself alone until it commits, and the rows it has written
are locked: an `UPDATE` of such a row waits. So the tables below hold what is committed, and what a
transaction has written is in the phase of its request (`Work`). The insertion into the outbox and the
audit record are part of the commit.

A statement that is under way may fail: the transaction is rolled back and the request throws. After
its commit `deleteReview` has no statement left; the other two look at the quiz once more before they
dispatch. Quizzes are changed by requests of other modules at any time.
-/

namespace QuizBackend.Review.Deletion

open Lib Outbox

/-! ## Requests -/

inductive Request where
  | deleteReview (quizId : Uuid) (user : JwtPayload)
  | adminDeleteReview (reviewId actorId : Uuid)
  | updateReportStatus (reportId : Uuid) (status : ReviewReportStatus) (actorId : Uuid)

structure Work where
  report : Option Uuid
  deletes : Option Uuid

inductive Stage where
  /-- The report is `actioned`; which review it is about is asked next. -/
  | reported
  | actioned (reviewId : Uuid)
  /-- `softDeleteReviewInTx` is done; which quiz the review is of is asked next. -/
  | softDeleted (reviewId : Uuid)
  /-- The quiz of the review is known; its title is asked next. -/
  | located (quizId reviewId : Uuid)
  | ready (payload : Option ReviewDeletedPayload)

inductive Phase where
  | begun
  | visible
  | found (quizId reviewId : Uuid)
  | described (payload : ReviewDeletedPayload)
  | checked (current : ReviewReportStatus)
  | writing (work : Work) (stage : Stage)
  | committed (payload : ReviewDeletedPayload)

/-- A request on its way; `nowIso` is the time it writes. -/
structure Call where
  callId : String
  request : Request
  nowIso : Int
  phase : Phase

def Phase.work : Phase → Work
  | .writing work _ => work
  | _ => ⟨none, none⟩

/-! ## The state -/

structure System where
  quizzes : Quizzes
  reviews : Reviews
  reports : Reports
  events : OutboxEvents
  dispatched : List ReviewDeletedPayload
  calls : Table String Call (·.callId)
  answers : List (String × Except ReviewError Unit)

structure Database where
  quizzes : Quizzes
  reviews : Reviews
  reports : Reports
  events : OutboxEvents
  unannounced : ∀ review ∈ reviews.rows, review.deletedAt = none →
    keyTaken events (some (deletedKey review.quizId review.reviewId)) = false

def System.start (db : Database) : System :=
  { quizzes := db.quizzes, reviews := db.reviews, reports := db.reports, events := db.events,
    dispatched := [], calls := Table.empty _, answers := [] }

namespace System

variable (s : System)

section

variable (callId : String)

def answer (result : Except ReviewError Unit) : System :=
  { s with calls := s.calls.erase callId, answers := s.answers ++ [(callId, result)] }

def advance (phase : Phase) : System :=
  { s with calls := s.calls.modify callId (fun c => { c with phase }) fun _ => rfl }

def reviewLocked (reviewId : Uuid) : Bool :=
  s.calls.rows.any fun c => decide (c.callId ≠ callId) && decide (c.phase.work.deletes = some reviewId)

def reportLocked (reportId : Uuid) : Bool :=
  s.calls.rows.any fun c => decide (c.callId ≠ callId) && decide (c.phase.work.report = some reportId)

end

end System

/-- `UPDATE quiz_reviews SET deleted_at = … WHERE review_id = …`. -/
def softDelete (reviews : Reviews) (reviewId : Uuid) (nowIso : Int) : Reviews :=
  reviews.modify reviewId (fun review => { review with deletedAt := some nowIso }) fun _ => rfl

def Work.reviews (work : Work) (reviews : Reviews) (nowIso : Int) : Reviews :=
  match work.deletes with
  | none => reviews
  | some reviewId => softDelete reviews reviewId nowIso

def Work.reports (work : Work) (reports : Reports) (request : Request) (nowIso : Int) : Reports :=
  match work.report, request with
  | some reportId, .updateReportStatus _ status _ =>
    reports.modify reportId (fun report => { report with status, updatedAt := nowIso }) fun _ => rfl
  | _, _ => reports

def getQuizIdByReviewIdInTx (reviews : Reviews) (reviewId : Uuid) : Option Uuid :=
  (getReviewById reviews reviewId).map (·.quizId)

/-- What is announced, with `snapshotQuizMetadata` of the quiz. -/
def snapshotQuizMetadata (quizzes : Quizzes) (quizId reviewId : Uuid) : ReviewDeletedPayload :=
  let quiz := getQuizWithPublishedVersionById quizzes quizId
  { quizId
    quizTitle := (quiz.map (·.title)).getD ""
    quizCreatorId := (quiz.map (·.creatorId.text)).getD ""
    reviewId }

/-- `deleteSnapshot`: the record that is read has no title. -/
def deleteSnapshot (quizzes : Quizzes) (user : JwtPayload) (quizId reviewId : Uuid) :
    ReviewDeletedPayload :=
  { quizId
    quizTitle := ""
    quizCreatorId := ((getActiveQuizRecordById quizzes quizId).map (·.creatorId.text)).getD
      user.sub.text
    reviewId }

/-! ## Steps -/

namespace System

variable (s : System)

section

variable (c : Call)

def deleteReview (quizId : Uuid) (user : JwtPayload) : Option System :=
  match c.phase with
  | .begun => some <|
    match assertQuizVisibleById s.quizzes quizId with
    | .error e => s.answer c.callId (.error e)
    | .ok _ => s.advance c.callId .visible
  | .visible => some <|
    match getReviewByQuizAndUser s.reviews quizId user.sub with
    | none => s.answer c.callId (.error (.notFound reviewNotFoundMessage))
    | some existing =>
      if canModify user existing.userId then s.advance c.callId (.found quizId existing.reviewId)
      else s.answer c.callId (.error (.forbidden reviewForbiddenMessage))
  | .found quizId reviewId =>
    some (s.advance c.callId (.described (deleteSnapshot s.quizzes user quizId reviewId)))
  | .described payload =>
    if s.reviewLocked c.callId payload.reviewId then none
    else some <|
      match getReviewById s.reviews payload.reviewId with
      | none => s.answer c.callId (.error (.notFound reviewNotFoundMessage))
      | some _ =>
        s.advance c.callId (.writing ⟨none, some payload.reviewId⟩ (.ready (some payload)))
  | .committed payload => some
    { s.answer c.callId (.ok ()) with dispatched := s.dispatched ++ [payload] }
  | _ => none

/-- What `ReviewAdminService` does when the quiz of a deleted review is known: it looks at the quiz
before it writes the announcement, and again before it dispatches the event. -/
def announce : Option System :=
  match c.phase with
  | .writing work (.located quizId reviewId) =>
    some (s.advance c.callId
      (.writing work (.ready (some (snapshotQuizMetadata s.quizzes quizId reviewId)))))
  | .committed payload => some
    { s.answer c.callId (.ok ()) with
      dispatched := s.dispatched ++
        [snapshotQuizMetadata s.quizzes payload.quizId payload.reviewId] }
  | _ => none

def adminDeleteReview (reviewId : Uuid) : Option System :=
  match c.phase with
  | .begun => some <|
    match getReviewById s.reviews reviewId with
    | none => s.answer c.callId (.error (.notFound reviewNotFoundMessage))
    | some existing => s.advance c.callId (.found existing.quizId reviewId)
  | .found quizId reviewId =>
    if s.reviewLocked c.callId reviewId then none
    else some <|
      match getReviewById s.reviews reviewId with
      | none => s.answer c.callId (.error (.notFound reviewNotFoundMessage))
      | some _ => s.advance c.callId (.writing ⟨none, some reviewId⟩ (.located quizId reviewId))
  | _ => s.announce c

def updateReportStatus (reportId : Uuid) (status : ReviewReportStatus) :
    Option System :=
  match c.phase with
  | .begun => some <|
    match s.reports.find? reportId with
    | none => s.answer c.callId (.error (.reportNotFound reviewReportNotFoundMessage))
    | some report =>
      if canTransition report.status status then s.advance c.callId (.checked report.status)
      else s.answer c.callId (.error (.reportInvalidTransition reviewReportInvalidTransitionMessage))
  | .checked current =>
    -- `updateReportStatusIfCurrent`
    if s.reportLocked c.callId reportId then none
    else some <|
      match (s.reports.find? reportId).filter fun report => decide (report.status = current) with
      | none => s.answer c.callId
          (.error (.reportInvalidTransition reviewReportInvalidTransitionMessage))
      | some _ => s.advance c.callId (.writing ⟨some reportId, none⟩
          (if status = .actioned then .reported else .ready none))
  | .writing work .reported => some <|
    match s.reports.find? reportId with
    | none => s.advance c.callId (.writing work (.ready none))
    | some report => s.advance c.callId (.writing work (.actioned report.reviewId))
  | .writing work (.actioned reviewId) =>
    -- how many rows `softDeleteReviewInTx` has deleted is not asked
    if s.reviewLocked c.callId reviewId then none
    else some <|
      match getReviewById s.reviews reviewId with
      | none => s.advance c.callId (.writing work (.softDeleted reviewId))
      | some _ =>
        s.advance c.callId (.writing { work with deletes := some reviewId } (.softDeleted reviewId))
  | .writing work (.softDeleted reviewId) => some <|
    match getQuizIdByReviewIdInTx (work.reviews s.reviews c.nowIso) reviewId with
    | none => s.advance c.callId (.writing work (.ready none))
    | some quizId => s.advance c.callId (.writing work (.located quizId reviewId))
  | _ => s.announce c

def proceed : Option System :=
  match c.request with
  | .deleteReview quizId user => s.deleteReview c quizId user
  | .adminDeleteReview reviewId _ => s.adminDeleteReview c reviewId
  | .updateReportStatus reportId status _ => s.updateReportStatus c reportId status

def write (work : Work) : System :=
  { s with
    reviews := work.reviews s.reviews c.nowIso
    reports := work.reports s.reports c.request c.nowIso }

/-- The commit of a request, with the row it inserts into the outbox; a request that announces
nothing returns. -/
def commit (eventId : String) : Option System :=
  match c.phase with
  | .writing work (.ready none) => some ((s.write c work).answer c.callId (.ok ()))
  | .writing work (.ready (some payload)) =>
    match s.events.find? eventId with
    | some _ => none
    | none => some
      { (s.write c work).advance c.callId (.committed payload) with
        events := insertEvent s.events (scheduleReviewDeleted eventId payload c.nowIso) }
  | _ => none

def fail : Option System :=
  match c.phase, c.request with
  | .committed _, .deleteReview .. => none
  | _, _ => some (s.answer c.callId (.error .database))

end

end System

inductive Action where
  | begin (callId : String) (request : Request) (nowIso : Int)
  | proceed (callId : String)
  | commit (callId eventId : String)
  | fail (callId : String)
  | changeQuiz (quiz : QuizRow)

def System.step (s : System) : Action → Option System
  | .begin callId request nowIso =>
    (s.calls.insert? ⟨callId, request, nowIso, .begun⟩).map fun calls => { s with calls }
  | .proceed callId => (s.calls.find? callId).bind s.proceed
  | .commit callId eventId => (s.calls.find? callId).bind fun c => s.commit c eventId
  | .fail callId => (s.calls.find? callId).bind s.fail
  | .changeQuiz quiz => some { s with quizzes := s.quizzes.upsert quiz }

end QuizBackend.Review.Deletion
