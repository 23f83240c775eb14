import QuizBackend.Lib.Table
import QuizBackend.Lib.Uuid
import QuizBackend.Outbox.Events

/-!
# Reviews, reports of reviews and what is announced of them

The rows of `quizzes`, `quiz_reviews` and `review_reports` as far as the review services read them,
the policies and errors of the module, and `ReviewOutboxAdapter`, which writes the announcements into
the outbox. A review is deleted softly and is never restored.

The key of an announcement names the quiz and the review. Two announcements of one type with the same
key are about the same review (`deletedKey_injective`).
-/

namespace QuizBackend.Review

open Lib Outbox

/-! ## Tables -/

structure QuizRow where
  quizId : Uuid
  creatorId : Uuid
  title : String
  isHidden : Bool
  publishedVersionId : Option Uuid
  deletedAt : Option Int

structure ReviewRow where
  reviewId : Uuid
  quizId : Uuid
  userId : Uuid
  helpfulCount : Int
  deletedAt : Option Int
  deriving DecidableEq

inductive ReviewReportStatus where
  | open
  | reviewed
  | dismissed
  | actioned
  deriving DecidableEq

structure ReportRow where
  reportId : Uuid
  reviewId : Uuid
  status : ReviewReportStatus
  updatedAt : Int

abbrev Quizzes := Table Uuid QuizRow (·.quizId)
abbrev Reviews := Table Uuid ReviewRow (·.reviewId)
abbrev Reports := Table Uuid ReportRow (·.reportId)

theorem nodup_capitals :
    (([⟨1, 10, "Capitals", false, some 100, none⟩] : List QuizRow).map (·.quizId)).Nodup :=
  List.nodup_singleton _

theorem nodup_reviewOfCapitals :
    (([⟨1, 1, 20, 0, none⟩] : List ReviewRow).map (·.reviewId)).Nodup :=
  List.nodup_singleton _

def ReviewRow.isActive (review : ReviewRow) : Bool := review.deletedAt.isNone

/-- `getActiveQuizRecordById`. Its projection has no title. -/
def getActiveQuizRecordById (quizzes : Quizzes) (quizId : Uuid) : Option QuizRow :=
  (quizzes.find? quizId).filter fun quiz => quiz.deletedAt.isNone

def getQuizWithPublishedVersionById (quizzes : Quizzes) (quizId : Uuid) : Option QuizRow :=
  (quizzes.find? quizId).filter fun quiz => quiz.deletedAt.isNone && !quiz.isHidden

def getReviewById (reviews : Reviews) (reviewId : Uuid) : Option ReviewRow :=
  (reviews.find? reviewId).filter ReviewRow.isActive

def getReviewByQuizAndUser (reviews : Reviews) (quizId userId : Uuid) : Option ReviewRow :=
  reviews.rows.find? fun review =>
    decide (review.quizId = quizId) && decide (review.userId = userId) && review.isActive

theorem getReviewById_eq_some_iff {reviews : Reviews} {reviewId : Uuid} {review : ReviewRow} :
    getReviewById reviews reviewId = some review ↔
      reviews.find? reviewId = some review ∧ review.deletedAt = none := by
  rw [getReviewById, Option.filter_eq_some_iff, ReviewRow.isActive, Option.isNone_iff_eq_none]

theorem of_getReviewByQuizAndUser {reviews : Reviews} {quizId userId : Uuid} {review : ReviewRow}
    (h : getReviewByQuizAndUser reviews quizId userId = some review) :
    review ∈ reviews.rows ∧ review.quizId = quizId ∧ review.userId = userId := by
  have hmatch := List.find?_some h
  rw [Bool.and_eq_true, Bool.and_eq_true, decide_eq_true_iff, decide_eq_true_iff] at hmatch
  exact ⟨List.mem_of_find?_eq_some h, hmatch.1⟩

/-! ## Policies -/

inductive UserRole where
  | user
  | moderator
  | admin

structure JwtPayload where
  sub : Uuid
  role : UserRole

def UserRole.moderatesReviews : UserRole → Bool
  | .admin | .moderator => true
  | .user => false

def canModify (actor : JwtPayload) (userId : Uuid) : Bool :=
  if userId = actor.sub then true else actor.role.moderatesReviews

def isVisibleToReviewers : Option QuizRow → Bool
  | none => false
  | some quiz =>
    if quiz.isHidden then false
    else if quiz.publishedVersionId = none then false
    else true

def transitions : ReviewReportStatus → List ReviewReportStatus
  | .open => [.reviewed, .dismissed, .actioned]
  | .reviewed | .dismissed | .actioned => []

def canTransition (source target : ReviewReportStatus) : Bool :=
  if source = target then false else target ∈ transitions source

/-! ## Errors -/

inductive ReviewError where
  | notFound (message : String)
  | forbidden (message : String)
  | conflict (message : String)
  | validation (message : String)
  | reportNotFound (message : String)
  | reportInvalidTransition (message : String)
  | database
  deriving DecidableEq

def reviewNotFoundMessage : String := "Review not found"
def reviewForbiddenMessage : String := "You do not have permission to manage this review"
def reviewReportNotFoundMessage : String := "Report not found"
def reviewReportInvalidTransitionMessage : String :=
  "Report status can only transition from open to reviewed, dismissed, or actioned"
def reviewQuizNotFoundMessage : String := "Quiz not found"
def reviewSelfVoteMessage : String := "You cannot vote on your own review"

def assertQuizVisibleById (quizzes : Quizzes) (quizId : Uuid) : Except ReviewError Unit :=
  if isVisibleToReviewers (getActiveQuizRecordById quizzes quizId) then .ok ()
  else .error (.notFound reviewQuizNotFoundMessage)

/-! ## `ReviewOutboxAdapter` -/

structure ReviewSubmittedPayload where
  quizId : Uuid
  quizTitle : String
  quizCreatorId : String
  reviewId : Uuid
  userId : Uuid
  rating : Int

structure ReviewDeletedPayload where
  quizId : Uuid
  quizTitle : String
  quizCreatorId : String
  reviewId : Uuid
  deriving DecidableEq

structure ReviewHelpfulChangedPayload where
  quizId : Uuid
  reviewId : Uuid
  delta : Int

/-- What the three methods insert; `next_attempt_at` is `now()` by default. -/
def reviewEvent (eventId eventType key : String) (payload : List (String × JsonValue))
    (nowIso : Int) : NewEvent :=
  { eventId, aggregateType := "review", eventType, payload, createdAt := nowIso,
    nextAttemptAt := nowIso, idempotencyKey := some key, correlationId := none }

section

variable (quizId reviewId : Uuid)

def submittedKey : String :=
  "review:submitted:" ++ quizId.text ++ ":" ++ reviewId.text

def deletedKey : String :=
  "review:deleted:" ++ quizId.text ++ ":" ++ reviewId.text

def helpfulChangedKey (delta : Int) : String :=
  "review:helpful_changed:" ++ quizId.text ++ ":" ++ reviewId.text ++ ":" ++ toString delta

end

def scheduleReviewSubmitted (eventId : String) (payload : ReviewSubmittedPayload)
    (nowIso : Int) : NewEvent :=
  reviewEvent eventId "review.submitted" (submittedKey payload.quizId payload.reviewId)
    [("quizId", .str payload.quizId.text), ("quizTitle", .str payload.quizTitle),
      ("quizCreatorId", .str payload.quizCreatorId), ("reviewId", .str payload.reviewId.text),
      ("userId", .str payload.userId.text), ("rating", .num payload.rating)] nowIso

def scheduleReviewDeleted (eventId : String) (payload : ReviewDeletedPayload)
    (nowIso : Int) : NewEvent :=
  reviewEvent eventId "review.deleted" (deletedKey payload.quizId payload.reviewId)
    [("quizId", .str payload.quizId.text), ("quizTitle", .str payload.quizTitle),
      ("quizCreatorId", .str payload.quizCreatorId), ("reviewId", .str payload.reviewId.text)]
    nowIso

def scheduleReviewHelpfulChanged (eventId : String) (payload : ReviewHelpfulChangedPayload)
    (nowIso : Int) : NewEvent :=
  reviewEvent eventId "review.helpful_changed"
    (helpfulChangedKey payload.quizId payload.reviewId payload.delta)
    [("quizId", .str payload.quizId.text), ("reviewId", .str payload.reviewId.text),
      ("delta", .num payload.delta)] nowIso

def isAbout (eventType : String) (quizId reviewId : Uuid) (row : OutboxRow) : Bool :=
  row.eventType == eventType && row.field "quizId" == some (.str quizId.text) &&
    row.field "reviewId" == some (.str reviewId.text)

theorem isAbout_scheduleReviewDeleted {eventId : String} {payload : ReviewDeletedPayload}
    {nowIso : Int} {quizId reviewId : Uuid} :
    isAbout "review.deleted" quizId reviewId (scheduleReviewDeleted eventId payload nowIso).row ↔
      payload.quizId = quizId ∧ payload.reviewId = reviewId := by
  have hquiz : (scheduleReviewDeleted eventId payload nowIso).row.field "quizId"
      = some (.str payload.quizId.text) := rfl
  have hreview : (scheduleReviewDeleted eventId payload nowIso).row.field "reviewId"
      = some (.str payload.reviewId.text) := rfl
  have htype : (scheduleReviewDeleted eventId payload nowIso).row.eventType = "review.deleted" := rfl
  rw [isAbout, hquiz, hreview, htype, Bool.and_eq_true, Bool.and_eq_true, beq_iff_eq, beq_iff_eq,
    beq_iff_eq, Option.some.injEq, Option.some.injEq, JsonValue.str.injEq, JsonValue.str.injEq,
    Uuid.text_inj, Uuid.text_inj, and_iff_right rfl]

theorem deletedKey_injective {quizId quizId' reviewId reviewId' : Uuid}
    (h : deletedKey quizId reviewId = deletedKey quizId' reviewId') : reviewId = reviewId' :=
  Uuid.text_injective h

theorem rows_insertEvent {events : OutboxEvents} {e : NewEvent}
    (hfresh : events.find? e.eventId = none) :
    (insertEvent events e).rows =
      if keyTaken events e.idempotencyKey then events.rows else events.rows ++ [e.row] := by
  unfold insertEvent
  split
  · rfl
  · obtain ⟨t', ht'⟩ := Table.insert?_isSome (t := events) (r := e.row) hfresh
    rw [ht', Option.getD_some]
    exact Table.rows_of_insert? ht'

end QuizBackend.Review
