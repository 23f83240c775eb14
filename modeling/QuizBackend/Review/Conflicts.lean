import QuizBackend.Lib.Text
import QuizBackend.Review.Announced

/-!
# Who has reviewed a quiz already

A user reviews a quiz once. `createReview` takes an advisory lock on the quiz and the user, looks for
a review of theirs that is not deleted, and throws a `ReviewConflictError` if there is one; else it
inserts the review and its announcement. The constraint `uq_quiz_reviews_quiz_user` has the deleted
reviews in it as well, and for what it refuses there is a `catch`.

So a user whose review has been deleted comes to the insertion, and it is refused. The `catch` asks
the error for its `code` and its `constraint`. The error is a `DrizzleQueryError`, which has neither:
they are on its `cause`. It is thrown on as it is (`caught_eq`); the request ends without a review and
without a conflict.

Below, requests to create run beside those to delete. The lock keeps creations of one review apart, so
that nothing else goes wrong: conflicts are reported exactly in the runs in which no user comes to the
insertion with a deleted review (`conflicts_reported_iff`).
-/

namespace QuizBackend.Review.Creation

open Lib Outbox Table

/-! ## Errors -/

def reviewQuizUserConflictMessage : String := "You have already reviewed this quiz"
def reviewAttemptRequiredMessage : String :=
  "You must complete at least one attempt before reviewing this quiz"

structure PgError where
  code : String
  constraint : Option String
  deriving DecidableEq

inductive Thrown where
  | domain (e : ReviewError)
  | attemptRequired (message : String)
  | query (cause : PgError)
  deriving DecidableEq

def errorCode : ReviewError → Option String
  | .notFound _ => some "REVIEW_NOT_FOUND"
  | .forbidden _ => some "REVIEW_FORBIDDEN"
  | .conflict _ => some "REVIEW_CONFLICT"
  | .validation _ => some "REVIEW_VALIDATION"
  | .reportNotFound _ => some "REVIEW_REPORT_NOT_FOUND"
  | .reportInvalidTransition _ => some "REVIEW_REPORT_INVALID_TRANSITION"
  | .database => none

/-- `error.code`; a `DrizzleQueryError` has the error of `pg` on `error.cause`. -/
def Thrown.code : Thrown → Option String
  | .domain e => errorCode e
  | .attemptRequired _ => some "REVIEW_ATTEMPT_REQUIRED"
  | .query _ => none

/-- `error.constraint`, which only errors of `pg` have. -/
def Thrown.constraint : Thrown → Option String
  | .domain _ | .attemptRequired _ | .query _ => none

def uniqueViolation : PgError := ⟨"23505", some "uq_quiz_reviews_quiz_user"⟩

def conflict : Thrown := .domain (.conflict reviewQuizUserConflictMessage)

def caught (error : Thrown) : Thrown :=
  if error.code = some "23505" ∧ error.constraint = some "uq_quiz_reviews_quiz_user" then conflict
  else error

/-! ## Requests -/

/-- What `createReview` is called with. The body has been validated as a `CreateReviewDto`, so that
the checks of the table let it through. -/
structure Request where
  quizId : Uuid
  user : JwtPayload
  rating : Int
  comment : Option String
  rating_range : 1 ≤ rating ∧ rating ≤ 5
  comment_length : ∀ text, comment = some text → utf16Length text ≤ 1000

structure QuizSnapshot where
  quizTitle : String
  quizCreatorId : Uuid

/-- How far a request has come. From `locked` on the phase also has, for the record, whether the user
had a review that was not deleted when the lock was taken. -/
inductive Phase where
  | begun
  | described (quiz : QuizSnapshot)
  | attempted (quiz : QuizSnapshot)
  | locked (quiz : QuizSnapshot) (active : Bool)
  /-- `existingInsideLock` is null. -/
  | looked (quiz : QuizSnapshot) (active : Bool)
  | inserted (quiz : QuizSnapshot) (active : Bool) (reviewId : Uuid)

def Phase.active : Phase → Option Bool
  | .begun | .described _ | .attempted _ => none
  | .locked _ active | .looked _ active | .inserted _ active _ => some active

structure Call where
  callId : String
  request : Request
  nowIso : Int
  phase : Phase

open Call hiding request

structure CreatedReview where
  reviewId : Uuid
  quizId : Uuid
  userId : Uuid
  rating : Int
  comment : Option String
  createdAt : Int
  updatedAt : Int

structure Answer where
  callId : String
  quizId : Uuid
  userId : Uuid
  active : Option Bool
  result : Except Thrown CreatedReview

/-! ## The state -/

/-- The requests to delete and the tables (`Deletion.System`), with the requests to create. The quizzes
in `ownerless` have no creator, whatever their row has for one. -/
structure System where
  deletion : Deletion.System
  ownerless : List Uuid
  completed : List (Uuid × Uuid)
  creates : Table String Call (·.callId)
  answered : List Answer
  dispatched : List ReviewSubmittedPayload

def isOf (quizId userId : Uuid) (review : ReviewRow) : Bool :=
  decide (review.quizId = quizId) && decide (review.userId = userId)

/-- The tables before the requests: they obey the constraint, and no review is announced that has not
been stored. -/
structure Database extends Deletion.Database where
  ownerless : List Uuid
  completed : List (Uuid × Uuid)
  unique : (reviews.rows.map fun review => (review.quizId, review.userId)).Nodup
  unsubmitted : ∀ quizId reviewId, reviews.find? reviewId = none →
    keyTaken events (some (submittedKey quizId reviewId)) = false

def System.start (db : Database) : System :=
  { deletion := Deletion.System.start db.toDatabase, ownerless := db.ownerless,
    completed := db.completed, creates := empty _, answered := [], dispatched := [] }

def Call.row (c : Call) (reviewId : Uuid) : ReviewRow :=
  { reviewId, quizId := c.request.quizId, userId := c.request.user.sub, helpfulCount := 0,
    deletedAt := none }

def Call.created (c : Call) (reviewId : Uuid) : CreatedReview :=
  { reviewId, quizId := c.request.quizId, userId := c.request.user.sub, rating := c.request.rating,
    comment := c.request.comment, createdAt := c.nowIso, updatedAt := c.nowIso }

def Call.payload (c : Call) (quiz : QuizSnapshot) (reviewId : Uuid) : ReviewSubmittedPayload :=
  { quizId := c.request.quizId, quizTitle := quiz.quizTitle,
    quizCreatorId := quiz.quizCreatorId.text, reviewId, userId := c.request.user.sub,
    rating := c.request.rating }

/-! ## Steps -/

section Steps

variable (hashtextextended : String → BitVec 64)

def lockKey (quizId userId : Uuid) : BitVec 64 :=
  hashtextextended quizId.text ^^^ hashtextextended userId.text

/-- The lock a request holds, from the first statement of its transaction to the end. -/
def Call.lock (c : Call) : Option (BitVec 64) :=
  match c.phase with
  | .begun | .described _ | .attempted _ => none
  | .locked .. | .looked .. | .inserted .. =>
    some (lockKey hashtextextended c.request.quizId c.request.user.sub)

namespace System

variable (s : System)

def advance (callId : String) (phase : Phase) : System :=
  { s with creates := s.creates.modify callId (fun c => { c with phase }) fun _ => rfl }

/-- The request throws or returns; its transaction is over. -/
def answer (c : Call) (result : Except Thrown CreatedReview) : System :=
  { s with
    creates := s.creates.erase c.callId
    answered := s.answered ++
      [⟨c.callId, c.request.quizId, c.request.user.sub, c.phase.active, result⟩] }

def lockHeld (callId : String) (key : BitVec 64) : Bool :=
  s.creates.rows.any fun c =>
    decide (c.callId ≠ callId) && decide (c.lock hashtextextended = some key)

/-- The next statement of `createReview`, its writes apart. -/
def proceed (c : Call) : Option System :=
  let quizId := c.request.quizId
  let userId := c.request.user.sub
  match c.phase with
  | .begun => some <|
    match getQuizWithPublishedVersionById s.deletion.quizzes quizId with
    | none => s.answer c (.error (.domain (.notFound reviewQuizNotFoundMessage)))
    | some quiz =>
      if ¬ isVisibleToReviewers (some quiz) ∨ quizId ∈ s.ownerless then
        s.answer c (.error (.domain (.notFound reviewQuizNotFoundMessage)))
      else s.advance c.callId (.described ⟨quiz.title, quiz.creatorId⟩)
  | .described quiz => some <|
    -- `hasCompletedAttempt`
    if (quizId, userId) ∈ s.completed then s.advance c.callId (.attempted quiz)
    else s.answer c (.error (.attemptRequired reviewAttemptRequiredMessage))
  | .attempted quiz =>
    if s.lockHeld hashtextextended c.callId (lockKey hashtextextended quizId userId) then none
    else some (s.advance c.callId
      (.locked quiz (getReviewByQuizAndUser s.deletion.reviews quizId userId).isSome))
  | .locked quiz active => some <|
    match getReviewByQuizAndUser s.deletion.reviews quizId userId with
    | some _ => s.answer c (.error (caught conflict))
    | none => s.advance c.callId (.looked quiz active)
  | _ => none

/-- `tx.insert(quizReviews)`. The constraint looks at deleted reviews too; a review that another
transaction has inserted for the same quiz and user there is none, which the lock sees to. -/
def insert (c : Call) (reviewId : Uuid) : Option System :=
  match c.phase with
  | .looked quiz active => some <|
    if s.deletion.reviews.rows.any (isOf c.request.quizId c.request.user.sub) then
      s.answer c (.error (caught (.query uniqueViolation)))
    else s.advance c.callId (.inserted quiz active reviewId)
  | _ => none

/-- The insertion of the announcement and the commit; then the request dispatches and returns. A taken
`review_id` does not happen: the database draws it. -/
def commit (c : Call) (eventId : String) : Option System :=
  match c.phase with
  | .inserted quiz _ reviewId =>
    match s.deletion.reviews.insert? (c.row reviewId), s.deletion.events.find? eventId with
    | some reviews, none =>
      some { s.answer c (.ok (c.created reviewId)) with
        deletion := { s.deletion with
          reviews
          events := insertEvent s.deletion.events
            (scheduleReviewSubmitted eventId (c.payload quiz reviewId) c.nowIso) }
        dispatched := s.dispatched ++ [c.payload quiz reviewId] }
    | _, _ => none
  | _ => none

end System

inductive Action where
  | begin (callId : String) (request : Request) (nowIso : Int)
  | proceed (callId : String)
  | insert (callId : String) (reviewId : Uuid)
  | commit (callId eventId : String)
  | deletion (action : Deletion.Action)
  | others (completed : List (Uuid × Uuid)) (ownerless : List Uuid)

def System.step (s : System) : Action → Option System
  | .begin callId request nowIso =>
    (s.creates.insert? ⟨callId, request, nowIso, .begun⟩).map fun creates => { s with creates }
  | .proceed callId => (s.creates.find? callId).bind (s.proceed hashtextextended)
  | .insert callId reviewId => (s.creates.find? callId).bind fun c => s.insert c reviewId
  | .commit callId eventId => (s.creates.find? callId).bind fun c => s.commit c eventId
  | .deletion action => (s.deletion.step action).map fun deletion => { s with deletion }
  | .others completed ownerless => some { s with completed, ownerless }

end Steps

/-! ## What should hold -/

/-- A request that has taken its lock has thrown a `ReviewConflictError` exactly where there was a
review that was not deleted, and else returned the review it has created. -/
def Answer.Exact (a : Answer) : Prop :=
  ∀ active, a.active = some active →
    (a.result = .error conflict ↔ active = true) ∧
      (a.result ≠ .error conflict →
        ∃ created, a.result = .ok created ∧ created.quizId = a.quizId ∧ created.userId = a.userId)

def identity (review : ReviewRow) : Uuid × Uuid × Uuid :=
  (review.reviewId, review.quizId, review.userId)

def Answer.stored (a : Answer) : Option (Uuid × Uuid × Uuid) :=
  a.result.toOption.map fun created => (created.reviewId, created.quizId, created.userId)

/-- Since `s₀`, one row and one announcement have been stored for every review that was returned, and
no others. -/
structure Stored (s₀ s : System) : Prop where
  rows : s.deletion.reviews.rows.map identity =
    s₀.deletion.reviews.rows.map identity ++ s.answered.filterMap Answer.stored
  submitted : ∀ quizId reviewId,
    s.deletion.events.rows.countP (isAbout "review.submitted" quizId reviewId) =
      s₀.deletion.events.rows.countP (isAbout "review.submitted" quizId reviewId) +
        (s.answered.filterMap Answer.stored).countP fun stored =>
          decide (stored.2.1 = quizId) && decide (stored.1 = reviewId)

/-- A conflict is answered where there is one, and only there. -/
structure ReportedExactly (s₀ s : System) : Prop where
  exact : ∀ a ∈ s.answered, a.Exact
  stored : Stored s₀ s

/-- No request comes to its insertion with a deleted review of its user for its quiz. -/
def FreeOfDeleted (s : System) : Action → Prop
  | .insert callId _ => ∀ c, s.creates.find? callId = some c →
    ∀ review ∈ s.deletion.reviews.rows, isOf c.request.quizId c.request.user.sub review = true →
      review.deletedAt = none
  | _ => True

instance (s : System) (a : Action) : Decidable (FreeOfDeleted s a) :=
  match a with
  | .insert callId _ => decidableOfFind (s.creates.find? callId) fun c =>
    ∀ review ∈ s.deletion.reviews.rows, isOf c.request.quizId c.request.user.sub review = true →
      review.deletedAt = none
  | .begin .. | .proceed _ | .commit .. | .deletion _ | .others .. => .isTrue trivial

theorem caught_eq (error : Thrown) : caught error = error := by
  unfold caught
  refine if_neg ?_
  rintro ⟨-, hconstraint⟩
  cases error <;> cases hconstraint

/-! ## What a deletion does -/

variable {a : Deletion.Action} {eventId : String}

section Deletions

structure DeletesOnly (before after : Reviews) : Prop where
  identities : after.rows.map identity = before.rows.map identity
  active : ∀ review ∈ after.rows, review.deletedAt = none → review ∈ before.rows

theorem DeletesOnly.refl (reviews : Reviews) : DeletesOnly reviews reviews :=
  ⟨rfl, fun _ h _ => h⟩

theorem deletesOnly_write (work : Deletion.Work) (reviews : Reviews) (nowIso : Int) :
    DeletesOnly reviews (work.reviews reviews nowIso) := by
  refine ⟨?_, fun review h hactive => (Deletion.active_of_mem_reviews h hactive).1⟩
  unfold Deletion.Work.reviews
  split
  · rfl
  · next reviewId _ =>
    rw [Deletion.softDelete, Table.modify, List.map_map]
    refine List.map_congr_left ?_
    intro review _
    simp only [Function.comp_apply]
    split <;> rfl

def Untouched (d d' : Deletion.System) : Prop := d'.reviews = d.reviews ∧ d'.events = d.events

variable {d d' : Deletion.System} {c : Deletion.Call}

theorem untouched_announce (h : d.announce c = some d') : Untouched d d' := by
  unfold Deletion.System.announce at h
  split at h
  · cases h
    exact ⟨rfl, rfl⟩
  · cases h
    exact ⟨rfl, rfl⟩
  · cases h

theorem untouched_deleteReview {quizId : Uuid} {user : JwtPayload}
    (h : d.deleteReview c quizId user = some d') : Untouched d d' := by
  unfold Deletion.System.deleteReview at h
  repeat' split at h
  all_goals cases h <;> exact ⟨rfl, rfl⟩

theorem untouched_adminDeleteReview {reviewId : Uuid}
    (h : d.adminDeleteReview c reviewId = some d') : Untouched d d' := by
  unfold Deletion.System.adminDeleteReview at h
  split at h
  case h_3 => exact untouched_announce h
  all_goals
    repeat' split at h
    all_goals cases h <;> exact ⟨rfl, rfl⟩

theorem untouched_updateReportStatus {reportId : Uuid} {status : ReviewReportStatus}
    (h : d.updateReportStatus c reportId status = some d') : Untouched d d' := by
  unfold Deletion.System.updateReportStatus at h
  split at h
  case h_6 => exact untouched_announce h
  all_goals
    repeat' split at h
    all_goals cases h <;> exact ⟨rfl, rfl⟩

/-- **What a step of the requests to delete does** to reviews and announcements. -/
theorem deletion_step (h : d.step a = some d') :
    DeletesOnly d.reviews d'.reviews ∧ (d'.events = d.events ∨
      ∃ eventId payload nowIso, d.events.find? eventId = none ∧
        d'.events = insertEvent d.events (scheduleReviewDeleted eventId payload nowIso)) := by
  have of_untouched : Untouched d d' → DeletesOnly d.reviews d'.reviews ∧ (d'.events = d.events ∨
      ∃ eventId payload nowIso, d.events.find? eventId = none ∧
        d'.events = insertEvent d.events (scheduleReviewDeleted eventId payload nowIso)) :=
    fun hsame => ⟨hsame.1 ▸ .refl _, .inl hsame.2⟩
  cases a with
  | begin callId request nowIso =>
    obtain ⟨calls, -, rfl⟩ := Option.map_eq_some_iff.mp h
    exact of_untouched ⟨rfl, rfl⟩
  | proceed callId =>
    obtain ⟨c, -, -, hproceed⟩ := of_find?_bind h
    unfold Deletion.System.proceed at hproceed
    split at hproceed
    · exact of_untouched (untouched_deleteReview hproceed)
    · exact of_untouched (untouched_adminDeleteReview hproceed)
    · exact of_untouched (untouched_updateReportStatus hproceed)
  | commit callId eventId =>
    obtain ⟨c, -, -, hcommit⟩ := of_find?_bind h
    unfold Deletion.System.commit at hcommit
    split at hcommit
    · next work _ =>
      cases hcommit
      exact ⟨deletesOnly_write work d.reviews c.nowIso, .inl rfl⟩
    · next work payload _ =>
      split at hcommit
      · cases hcommit
      · next hfresh =>
        cases hcommit
        exact ⟨deletesOnly_write work d.reviews c.nowIso, .inr ⟨eventId, payload, c.nowIso, hfresh, rfl⟩⟩
    · cases hcommit
  | fail callId =>
    obtain ⟨c, -, -, hfail⟩ := of_find?_bind h
    unfold Deletion.System.fail at hfail
    split at hfail
    · cases hfail
    · cases hfail
      exact of_untouched ⟨rfl, rfl⟩
  | changeQuiz quiz =>
    cases h
    exact of_untouched ⟨rfl, rfl⟩

end Deletions

/-! ## Reviews of a quiz by a user -/

section Reviews

variable {reviews reviews' : Reviews} {quizId userId : Uuid}

theorem isOf_iff {review : ReviewRow} :
    isOf quizId userId review = true ↔ review.quizId = quizId ∧ review.userId = userId := by
  rw [isOf, Bool.and_eq_true, decide_eq_true_iff, decide_eq_true_iff]

def HasReview (reviews : Reviews) (quizId userId : Uuid) : Prop :=
  ∃ review ∈ reviews.rows, isOf quizId userId review = true

theorem hasReview_iff_identity : HasReview reviews quizId userId ↔
    ∃ x ∈ reviews.rows.map identity, x.2 = (quizId, userId) := by
  simp only [HasReview, isOf_iff, List.mem_map, exists_exists_and_eq_and, identity, Prod.mk.injEq]

theorem DeletesOnly.hasReview_iff (h : DeletesOnly reviews reviews') :
    HasReview reviews' quizId userId ↔ HasReview reviews quizId userId := by
  rw [hasReview_iff_identity, hasReview_iff_identity, h.identities]

theorem getReviewByQuizAndUser_eq_none_iff : getReviewByQuizAndUser reviews quizId userId = none ↔
    ∀ review ∈ reviews.rows, isOf quizId userId review = true → review.deletedAt ≠ none := by
  rw [getReviewByQuizAndUser, List.find?_eq_none]
  refine forall₂_congr fun review _ => ?_
  rw [isOf, Bool.and_eq_true, ReviewRow.isActive, Option.isNone_iff_eq_none, not_and]

theorem DeletesOnly.none (h : DeletesOnly reviews reviews')
    (hnone : getReviewByQuizAndUser reviews quizId userId = none) :
    getReviewByQuizAndUser reviews' quizId userId = none := by
  rw [getReviewByQuizAndUser_eq_none_iff] at hnone ⊢
  intro review hreview hof hactive
  exact hnone review (h.active review hreview hactive) hof hactive

theorem hasReview_of_isSome (h : (getReviewByQuizAndUser reviews quizId userId).isSome = true) :
    HasReview reviews quizId userId := by
  obtain ⟨review, hreview⟩ := Option.isSome_iff_exists.mp h
  obtain ⟨hmem, hquiz, huser⟩ := of_getReviewByQuizAndUser hreview
  exact ⟨review, hmem, isOf_iff.mpr ⟨hquiz, huser⟩⟩

variable {row : ReviewRow}

theorem hasReview_append (h : reviews'.rows = reviews.rows ++ [row]) :
    HasReview reviews' quizId userId ↔
      HasReview reviews quizId userId ∨ isOf quizId userId row = true := by
  unfold HasReview
  rw [h]
  simp only [List.mem_append, List.mem_singleton, or_and_right, exists_or, exists_eq_left]

theorem none_append (h : reviews'.rows = reviews.rows ++ [row])
    (hother : isOf quizId userId row = false)
    (hnone : getReviewByQuizAndUser reviews quizId userId = none) :
    getReviewByQuizAndUser reviews' quizId userId = none := by
  rw [getReviewByQuizAndUser_eq_none_iff] at hnone ⊢
  rw [h]
  intro review hreview hof
  rcases List.mem_append.mp hreview with hold | hnew
  · exact hnone review hold hof
  · rw [List.mem_singleton.mp hnew, hother] at hof
    cases hof

end Reviews

/-! ## The invariant -/

def Call.Ok (reviews : Reviews) (c : Call) : Prop :=
  match c.phase with
  | .begun | .described _ | .attempted _ => True
  | .locked _ active =>
    (active = true → HasReview reviews c.request.quizId c.request.user.sub) ∧
      (active = false → getReviewByQuizAndUser reviews c.request.quizId c.request.user.sub = none)
  | .looked _ active =>
    (active = true → HasReview reviews c.request.quizId c.request.user.sub) ∧
      getReviewByQuizAndUser reviews c.request.quizId c.request.user.sub = none
  | .inserted _ active _ =>
    active = false ∧ ¬ HasReview reviews c.request.quizId c.request.user.sub

/-- No two requests hold the same lock, the constraint holds, and nothing is announced that has not
been stored. -/
structure Inv (hashtextextended : String → BitVec 64) (s : System) : Prop where
  calls : ∀ c ∈ s.creates.rows, c.Ok s.deletion.reviews
  locks : s.creates.Exclusive (lock hashtextextended)
  unique : (s.deletion.reviews.rows.map fun review => (review.quizId, review.userId)).Nodup
  unsubmitted : ∀ quizId reviewId, s.deletion.reviews.find? reviewId = none →
    keyTaken s.deletion.events (some (submittedKey quizId reviewId)) = false

section Invariant

variable {hashtextextended : String → BitVec 64} {s s' : System}

theorem Inv.start (db : Database) : Inv hashtextextended (System.start db) :=
  ⟨fun _ hc => absurd hc List.not_mem_nil, exclusive_empty, db.unique, db.unsubmitted⟩

theorem Call.Ok.deletes {c : Call} {reviews reviews' : Reviews} (h : c.Ok reviews)
    (hdeletes : DeletesOnly reviews reviews') : c.Ok reviews' := by
  unfold Ok at h ⊢
  split
  · trivial
  · trivial
  · trivial
  · next hphase =>
    simp only [hphase] at h
    exact ⟨fun hactive => hdeletes.hasReview_iff.mpr (h.1 hactive),
      fun hactive => hdeletes.none (h.2 hactive)⟩
  · next hphase =>
    simp only [hphase] at h
    exact ⟨fun hactive => hdeletes.hasReview_iff.mpr (h.1 hactive), hdeletes.none h.2⟩
  · next hphase =>
    simp only [hphase] at h
    exact ⟨h.1, fun hhas => h.2 (hdeletes.hasReview_iff.mp hhas)⟩

variable (hashtextextended) in
theorem Call.Ok.append {c : Call} {reviews reviews' : Reviews} {row : ReviewRow}
    (h : c.Ok reviews) (hrows : reviews'.rows = reviews.rows ++ [row])
    (hother : c.lock hashtextextended ≠ none →
      isOf c.request.quizId c.request.user.sub row = false) : c.Ok reviews' := by
  unfold Ok at h ⊢
  unfold lock at hother
  split
  · trivial
  · trivial
  · trivial
  · next hphase =>
    simp only [hphase] at h hother
    have hrow := hother (Option.some_ne_none _)
    exact ⟨fun hactive => (hasReview_append hrows).mpr (.inl (h.1 hactive)),
      fun hactive => none_append hrows hrow (h.2 hactive)⟩
  · next hphase =>
    simp only [hphase] at h hother
    have hrow := hother (Option.some_ne_none _)
    exact ⟨fun hactive => (hasReview_append hrows).mpr (.inl (h.1 hactive)),
      none_append hrows hrow h.2⟩
  · next hphase =>
    simp only [hphase] at h hother
    have hrow := hother (Option.some_ne_none _)
    refine ⟨h.1, fun hhas => ?_⟩
    rcases (hasReview_append hrows).mp hhas with hold | hnew
    · exact h.2 hold
    · exact Bool.false_ne_true (hrow.symm.trans hnew)

theorem not_lockHeld_iff {callId : String} {key : BitVec 64} :
    s.lockHeld hashtextextended callId key = false ↔
      ∀ c ∈ s.creates.rows, c.callId ≠ callId → c.lock hashtextextended ≠ some key := by
  simp [System.lockHeld]

theorem Inv.answer (h : Inv hashtextextended s) (c : Call)
    (result : Except Thrown CreatedReview) : Inv hashtextextended (s.answer c result) :=
  ⟨fun x hx => h.calls x (mem_erase.mp hx).1, h.locks.erase c.callId, h.unique, h.unsubmitted⟩

structure Advances (hashtextextended : String → BitVec 64) (s : System) (c : Call) (phase : Phase) :
    Prop where
  ok : Ok s.deletion.reviews { c with phase }
  lock : ∀ key, lock hashtextextended { c with phase } = some key →
    c.lock hashtextextended = some key ∨ s.lockHeld hashtextextended c.callId key = false

theorem Inv.advance (h : Inv hashtextextended s) {c : Call}
    (hc : s.creates.find? c.callId = some c) {phase : Phase}
    (hgo : Advances hashtextextended s c phase) :
    Inv hashtextextended (s.advance c.callId phase) := by
  refine ⟨?_, h.locks.modify (fun c => { c with phase }) (fun _ => rfl) hc ?_, h.unique,
    h.unsubmitted⟩
  · intro x hx
    have hmodified : x ∈ (s.creates.modify c.callId (fun c => { c with phase }) fun _ => rfl).rows := hx
    rcases mem_modify_cases hc hmodified with rfl | ⟨hold, -⟩
    · exact hgo.ok
    · exact h.calls x hold
  · intro key hkey
    exact (hgo.lock key hkey).imp_right not_lockHeld_iff.mp

/-- What the next statement of a request can do: it ends as it should and stores nothing, or it goes
on. -/
inductive Outcome (hashtextextended : String → BitVec 64) (s : System) (c : Call) (s' : System) :
    Prop
  | ends (error : Thrown) (hs : s' = s.answer c (.error error))
      (exact : ∀ active, c.phase.active = some active → error = conflict ∧ active = true)
  | advances (phase : Phase) (hs : s' = s.advance c.callId phase)
      (h : Advances hashtextextended s c phase)

theorem proceed_cases {c : Call} (hok : c.Ok s.deletion.reviews)
    (h : s.proceed hashtextextended c = some s') : Outcome hashtextextended s c s' := by
  unfold System.proceed at h
  dsimp only at h
  split at h
  · next hphase =>
    have hactive : c.phase.active = none := by rw [hphase]; rfl
    rw [Option.some.injEq] at h
    split at h
    · exact .ends _ h.symm fun _ hsome => absurd (hactive.symm.trans hsome) nofun
    · split at h
      · exact .ends _ h.symm fun _ hsome => absurd (hactive.symm.trans hsome) nofun
      · exact .advances _ h.symm ⟨trivial, fun _ hkey => nomatch hkey⟩
  · next quiz hphase =>
    have hactive : c.phase.active = none := by rw [hphase]; rfl
    rw [Option.some.injEq] at h
    split at h
    · exact .advances _ h.symm ⟨trivial, fun _ hkey => nomatch hkey⟩
    · exact .ends _ h.symm fun _ hsome => absurd (hactive.symm.trans hsome) nofun
  · next quiz hphase =>
    split at h
    · cases h
    · next hfree =>
      rw [Option.some.injEq] at h
      refine .advances _ h.symm ⟨⟨hasReview_of_isSome, fun hnone => ?_⟩, fun key hkey => .inr ?_⟩
      · exact Option.isNone_iff_eq_none.mp (by rw [← Option.not_isSome, hnone]; rfl)
      · rw [← Option.some.inj hkey]
        exact Bool.eq_false_iff.mpr hfree
  · next quiz active hphase =>
    rw [Option.some.injEq] at h
    have hown : c.lock hashtextextended =
        some (lockKey hashtextextended c.request.quizId c.request.user.sub) := by
      rw [lock, hphase]
    unfold Ok at hok
    simp only [hphase] at hok
    split at h
    · next existing hexisting =>
      rw [caught_eq] at h
      refine .ends _ h.symm ?_
      intro active' hactive
      rw [hphase] at hactive
      obtain rfl : active = active' := Option.some.inj hactive
      refine ⟨rfl, ?_⟩
      by_contra hfalse
      rw [hok.2 (Bool.eq_false_iff.mpr hfalse)] at hexisting
      cases hexisting
    · next hnone =>
      exact .advances _ h.symm ⟨⟨hok.1, hnone⟩, fun key hkey => .inl (hown.trans hkey)⟩
  · cases h

variable (hashtextextended) in
/-- The insertion is refused where there is a review; then it has been deleted. -/
theorem insert_cases {c : Call} (hok : c.Ok s.deletion.reviews) {reviewId : Uuid}
    (h : s.insert c reviewId = some s') :
    c.phase.active.isSome = true ∧
      getReviewByQuizAndUser s.deletion.reviews c.request.quizId c.request.user.sub = none ∧
      (HasReview s.deletion.reviews c.request.quizId c.request.user.sub ∧
          s' = s.answer c (.error (.query uniqueViolation)) ∨
        ¬ HasReview s.deletion.reviews c.request.quizId c.request.user.sub ∧
          ∃ phase, s' = s.advance c.callId phase ∧ Advances hashtextextended s c phase) := by
  unfold System.insert at h
  split at h
  · next quiz active hphase =>
    rw [Option.some.injEq] at h
    unfold Ok at hok
    simp only [hphase] at hok
    refine ⟨by rw [hphase]; rfl, hok.2, ?_⟩
    have hown : c.lock hashtextextended =
        some (lockKey hashtextextended c.request.quizId c.request.user.sub) := by
      rw [lock, hphase]
    split at h
    · next hany =>
      rw [caught_eq] at h
      exact .inl ⟨List.any_eq_true.mp hany, h.symm⟩
    · next hany =>
      have hfree : ¬ HasReview s.deletion.reviews c.request.quizId c.request.user.sub :=
        fun hhas => hany (List.any_eq_true.mpr hhas)
      refine .inr ⟨hfree, _, h.symm, ⟨?_, hfree⟩, fun key hkey => .inl (hown.trans hkey)⟩
      exact Bool.eq_false_iff.mpr fun hactive => hfree (hok.1 hactive)
  · cases h

theorem commit_cases {c : Call} (h : s.commit c eventId = some s') :
    ∃ quiz active reviewId reviews, c.phase = .inserted quiz active reviewId ∧
      s.deletion.reviews.insert? (c.row reviewId) = some reviews ∧
      s.deletion.events.find? eventId = none ∧
      s' = { s.answer c (.ok (c.created reviewId)) with
        deletion := { s.deletion with
          reviews
          events := insertEvent s.deletion.events
            (scheduleReviewSubmitted eventId (c.payload quiz reviewId) c.nowIso) }
        dispatched := s.dispatched ++ [c.payload quiz reviewId] } := by
  unfold System.commit at h
  split at h
  · next quiz active reviewId hphase =>
    split at h
    · next reviews hinsert hfresh =>
      exact ⟨quiz, active, reviewId, reviews, hphase, hinsert, hfresh, (Option.some.inj h).symm⟩
    · cases h
  · cases h

theorem keyChars_ne (rest rest' : List Char) :
    "review:deleted:".toList ++ rest ≠ "review:submitted:".toList ++ rest' := by
  simp

theorem deletedKey_ne_submittedKey (quizId reviewId quizId' reviewId' : Uuid) :
    deletedKey quizId reviewId ≠ submittedKey quizId' reviewId' := by
  intro h
  have hchars := congrArg String.toList h
  unfold deletedKey submittedKey at hchars
  rw [String.toList_append, String.toList_append, String.toList_append, String.toList_append,
    String.toList_append, String.toList_append, List.append_assoc, List.append_assoc,
    List.append_assoc, List.append_assoc] at hchars
  exact keyChars_ne _ _ hchars

theorem lock_eq {c : Call} {key : BitVec 64} (h : c.lock hashtextextended = some key) :
    lockKey hashtextextended c.request.quizId c.request.user.sub = key := by
  unfold lock at h
  split at h
  all_goals first | cases h; done | exact Option.some.inj h

section

variable (h : Inv hashtextextended s)
include h

theorem Inv.commit {c : Call} (hc : s.creates.find? c.callId = some c)
    (hcommit : s.commit c eventId = some s') : Inv hashtextextended s' := by
  obtain ⟨quiz, active, reviewId, reviews, hphase, hinsert, hfresh, rfl⟩ := commit_cases hcommit
  have hmem := mem_of_find? hc
  have hrows := rows_of_insert? hinsert
  have hok := h.calls c hmem
  unfold Ok at hok
  simp only [hphase] at hok
  have hown : c.lock hashtextextended =
      some (lockKey hashtextextended c.request.quizId c.request.user.sub) := by
    rw [lock, hphase]
  refine ⟨?_, h.locks.erase c.callId, ?_, ?_⟩
  · intro x hx
    obtain ⟨hx, hne⟩ := mem_erase.mp hx
    refine (h.calls x hx).append hashtextextended hrows fun hlock => ?_
    -- else both would hold the same lock
    obtain ⟨key, hkey⟩ := Option.ne_none_iff_exists'.mp hlock
    rw [Bool.eq_false_iff]
    intro hsame
    obtain ⟨hquiz, huser⟩ := isOf_iff.mp hsame
    have hkey' : lockKey hashtextextended c.request.quizId c.request.user.sub = key := by
      rw [← lock_eq hkey, ← hquiz, ← huser]
      rfl
    exact hne (congrArg callId (h.locks x hx c hmem key hkey (hkey' ▸ hown)))
  · show (reviews.rows.map fun review => (review.quizId, review.userId)).Nodup
    rw [hrows, List.map_append, List.map_singleton]
    refine List.nodup_append.mpr ⟨h.unique, List.nodup_singleton _, ?_⟩
    rintro x hx y hy rfl
    obtain ⟨review, hreview, heq⟩ := List.mem_map.mp hx
    rw [List.mem_singleton.mp hy, Prod.mk.injEq] at heq
    exact hok.2 ⟨review, hreview, isOf_iff.mpr heq⟩
  · intro quizId reviewId' hnone
    have hfind := find?_insert? hinsert reviewId'
    rw [show reviews.find? reviewId' = none from hnone] at hfind
    split at hfind
    · cases hfind
    · next hne =>
      show keyTaken (insertEvent _ _) _ = false
      rw [Deletion.keyTaken_insertEvent hfresh]
      · exact h.unsubmitted quizId reviewId' hfind.symm
      · intro hkey
        exact hne (Uuid.text_injective (Option.some.inj hkey))

theorem Inv.deletion {d : Deletion.System}
    (hstep : s.deletion.step a = some d) : Inv hashtextextended { s with deletion := d } := by
  obtain ⟨hdeletes, hevents⟩ := deletion_step hstep
  have hids : d.reviews.rows.map (·.reviewId) = s.deletion.reviews.rows.map (·.reviewId) := by
    have hfst := congrArg (List.map Prod.fst) hdeletes.identities
    rwa [List.map_map, List.map_map] at hfst
  refine ⟨fun x hx => (h.calls x hx).deletes hdeletes, h.locks, ?_, ?_⟩
  · have hsnd := congrArg (List.map Prod.snd) hdeletes.identities
    rw [List.map_map, List.map_map] at hsnd
    exact (congrArg List.Nodup hsnd).mpr h.unique
  · intro quizId reviewId hnone
    have hbefore : s.deletion.reviews.find? reviewId = none := by
      rw [find?_eq_none_iff] at hnone ⊢
      rwa [← hids]
    have hkey := h.unsubmitted quizId reviewId hbefore
    rcases hevents with hsame | ⟨eventId, payload, nowIso, hfresh, hsame⟩
    · show keyTaken d.events _ = false
      rw [hsame]
      exact hkey
    · show keyTaken d.events _ = false
      rw [hsame, Deletion.keyTaken_insertEvent hfresh]
      · exact hkey
      · exact fun hsome => deletedKey_ne_submittedKey _ _ _ _ (Option.some.inj hsome)

theorem Inv.step {a : Action}
    (hstep : s.step hashtextextended a = some s') : Inv hashtextextended s' := by
  cases a with
  | begin callId request nowIso =>
    obtain ⟨creates, hcreates, rfl⟩ := Option.map_eq_some_iff.mp hstep
    refine ⟨?_, h.locks.insert? rfl hcreates, h.unique, h.unsubmitted⟩
    intro x hx
    rw [rows_of_insert? hcreates, List.mem_append, List.mem_singleton] at hx
    rcases hx with hx | rfl
    · exact h.calls x hx
    · trivial
  | proceed callId =>
    obtain ⟨c, hc, rfl, hproceed⟩ := of_find?_bind hstep
    cases proceed_cases (h.calls c (mem_of_find? hc)) hproceed with
    | ends error hs => exact hs ▸ h.answer c _
    | advances phase hs hgo => exact hs ▸ h.advance hc hgo
  | insert callId reviewId =>
    obtain ⟨c, hc, rfl, hinsert⟩ := of_find?_bind hstep
    obtain ⟨-, -, ⟨-, rfl⟩ | ⟨-, phase, rfl, hgo⟩⟩ :=
      insert_cases hashtextextended (h.calls c (mem_of_find? hc)) hinsert
    · exact h.answer c _
    · exact h.advance hc hgo
  | commit callId eventId =>
    obtain ⟨c, hc, rfl, hcommit⟩ := of_find?_bind hstep
    exact h.commit hc hcommit
  | deletion action =>
    obtain ⟨d, hd, rfl⟩ := Option.map_eq_some_iff.mp hstep
    exact h.deletion hd
  | others completed ownerless =>
    cases hstep
    exact ⟨h.calls, h.locks, h.unique, h.unsubmitted⟩

end

end Invariant

/-! ## What is reported and stored -/

section Reports

variable {hashtextextended : String → BitVec 64} {s₀ s s' : System}

theorem reported_of_same (h : ReportedExactly s₀ s) (hanswered : s'.answered = s.answered)
    (hreviews : s'.deletion.reviews = s.deletion.reviews)
    (hevents : s'.deletion.events = s.deletion.events) : ReportedExactly s₀ s' := by
  refine ⟨?_, ?_, ?_⟩
  · rw [hanswered]
    exact h.exact
  · rw [hanswered, hreviews]
    exact h.stored.rows
  · rw [hanswered, hevents]
    exact h.stored.submitted

theorem reported_answer_iff (h : ReportedExactly s₀ s) (c : Call) (error : Thrown) :
    ReportedExactly s₀ (s.answer c (.error error)) ↔
      ∀ active, c.phase.active = some active → error = conflict ∧ active = true := by
  have hnothing : (s.answer c (.error error)).answered.filterMap Answer.stored =
      s.answered.filterMap Answer.stored := by
    show (s.answered ++ [_]).filterMap _ = _
    rw [List.filterMap_append]
    exact List.append_nil _
  constructor
  · intro h' active hactive
    obtain ⟨hiff, hcreated⟩ := h'.exact _ (List.mem_append_right _ (List.mem_singleton_self _)) active
      hactive
    by_cases herror : error = conflict
    · exact ⟨herror, hiff.mp (congrArg Except.error herror)⟩
    · obtain ⟨_, hok, -⟩ := hcreated fun heq => herror (Except.error.inj heq)
      cases hok
  · intro hright
    refine ⟨?_, ?_, ?_⟩
    · intro a ha active hactive
      rcases List.mem_append.mp ha with hold | hnew
      · exact h.exact a hold active hactive
      · obtain rfl := List.mem_singleton.mp hnew
        obtain ⟨rfl, rfl⟩ := hright active hactive
        exact ⟨iff_of_true rfl rfl, fun hne => absurd rfl hne⟩
    · rw [hnothing]
      exact h.stored.rows
    · rw [hnothing]
      exact h.stored.submitted

theorem isAbout_submitted {payload : ReviewSubmittedPayload} {nowIso : Int} {quizId reviewId : Uuid} :
    isAbout "review.submitted" quizId reviewId (scheduleReviewSubmitted eventId payload nowIso).row =
      (decide (payload.quizId = quizId) && decide (payload.reviewId = reviewId)) := by
  have hquiz : (scheduleReviewSubmitted eventId payload nowIso).row.field "quizId"
      = some (.str payload.quizId.text) := rfl
  have hreview : (scheduleReviewSubmitted eventId payload nowIso).row.field "reviewId"
      = some (.str payload.reviewId.text) := rfl
  have htype : (scheduleReviewSubmitted eventId payload nowIso).row.eventType
      = "review.submitted" := rfl
  rw [isAbout, hquiz, hreview, htype, Bool.eq_iff_iff]
  simp only [Bool.and_eq_true, beq_iff_eq, Option.some.injEq, JsonValue.str.injEq, Uuid.text_inj,
    decide_eq_true_iff, true_and]

theorem countP_submitted_deleted {events : OutboxEvents} {payload : ReviewDeletedPayload}
    {nowIso : Int} (hfresh : events.find? eventId = none) (quizId reviewId : Uuid) :
    (insertEvent events (scheduleReviewDeleted eventId payload nowIso)).rows.countP
        (isAbout "review.submitted" quizId reviewId) =
      events.rows.countP (isAbout "review.submitted" quizId reviewId) := by
  have hother : isAbout "review.submitted" quizId reviewId
      (scheduleReviewDeleted eventId payload nowIso).row = false := by
    rw [isAbout, Bool.and_assoc, Bool.and_eq_false_iff]
    exact .inl rfl
  have hid : events.find? (scheduleReviewDeleted eventId payload nowIso).eventId = none := hfresh
  rw [rows_insertEvent hid]
  split
  · rfl
  · rw [List.countP_append, List.countP_singleton, hother]
    rfl

/-- **A commit** stores one review and one announcement. -/
theorem reported_commit (h : ReportedExactly s₀ s) (hinv : Inv hashtextextended s) {c : Call}
    (hc : s.creates.find? c.callId = some c) (hcommit : s.commit c eventId = some s') :
    ReportedExactly s₀ s' := by
  obtain ⟨quiz, active, reviewId, reviews, hphase, hinsert, hfresh, rfl⟩ := commit_cases hcommit
  have hok := hinv.calls c (mem_of_find? hc)
  unfold Ok at hok
  simp only [hphase] at hok
  have hfree := hinv.unsubmitted c.request.quizId reviewId (find?_of_insert? hinsert)
  have hstored : (s.answer c (.ok (c.created reviewId))).answered.filterMap Answer.stored =
      s.answered.filterMap Answer.stored ++
        [(reviewId, c.request.quizId, c.request.user.sub)] := by
    show (s.answered ++ [_]).filterMap _ = _
    rw [List.filterMap_append]
    rfl
  refine ⟨?_, ?_, ?_⟩
  · intro a ha active' hactive
    rcases List.mem_append.mp ha with hold | hnew
    · exact h.exact a hold active' hactive
    · obtain rfl := List.mem_singleton.mp hnew
      have hsame : c.phase.active = some active' := hactive
      rw [hphase] at hsame
      obtain rfl : active = active' := Option.some.inj hsame
      rw [hok.1]
      refine ⟨⟨?_, fun hfalse => absurd hfalse Bool.false_ne_true⟩, fun _ => ⟨_, rfl, rfl, rfl⟩⟩
      intro hconflict
      cases hconflict
  · show reviews.rows.map identity = _ ++ (s.answer c (.ok (c.created reviewId))).answered.filterMap _
    rw [rows_of_insert? hinsert, List.map_append, h.stored.rows, hstored, List.append_assoc]
    rfl
  · intro quizId reviewId'
    show (insertEvent s.deletion.events _).rows.countP _ =
      _ + ((s.answer c (.ok (c.created reviewId))).answered.filterMap Answer.stored).countP _
    have hkey : keyTaken s.deletion.events (scheduleReviewSubmitted eventId
        (c.payload quiz reviewId) c.nowIso).idempotencyKey = false := hfree
    have hid : s.deletion.events.find? (scheduleReviewSubmitted eventId
        (c.payload quiz reviewId) c.nowIso).eventId = none := hfresh
    rw [rows_insertEvent hid, hkey, if_neg Bool.false_ne_true, List.countP_append,
      List.countP_singleton, hstored, List.countP_append, List.countP_singleton,
      h.stored.submitted, isAbout_submitted, Nat.add_assoc]
    rfl

theorem reported_deletion (h : ReportedExactly s₀ s) {d : Deletion.System}
    (hstep : s.deletion.step a = some d) : ReportedExactly s₀ { s with deletion := d } := by
  obtain ⟨hdeletes, hevents⟩ := deletion_step hstep
  refine ⟨h.exact, hdeletes.identities.trans h.stored.rows, ?_⟩
  intro quizId reviewId
  show d.events.rows.countP _ = _
  rcases hevents with hsame | ⟨eventId, payload, nowIso, hfresh, hsame⟩
  · rw [hsame]
    exact h.stored.submitted quizId reviewId
  · rw [hsame, countP_submitted_deleted hfresh]
    exact h.stored.submitted quizId reviewId

/-- **The step**: only at an insertion can it go wrong, and only where there is a deleted review. -/
theorem freeOfDeleted_iff (hinv : Inv hashtextextended s) (h : ReportedExactly s₀ s) {a : Action}
    (hstep : s.step hashtextextended a = some s') : FreeOfDeleted s a ↔ ReportedExactly s₀ s' := by
  cases a with
  | begin callId request nowIso =>
    obtain ⟨creates, -, rfl⟩ := Option.map_eq_some_iff.mp hstep
    exact iff_of_true trivial (reported_of_same h rfl rfl rfl)
  | proceed callId =>
    obtain ⟨c, hc, rfl, hproceed⟩ := of_find?_bind hstep
    refine iff_of_true trivial ?_
    cases proceed_cases (hinv.calls c (mem_of_find? hc)) hproceed with
    | ends error hs hexact => exact hs ▸ (reported_answer_iff h c error).mpr hexact
    | advances phase hs => exact reported_of_same h (hs ▸ rfl) (hs ▸ rfl) (hs ▸ rfl)
  | insert callId reviewId =>
    obtain ⟨c, hc, rfl, hinsert⟩ := of_find?_bind hstep
    obtain ⟨hlocked, hnone, hcases⟩ :=
      insert_cases hashtextextended (hinv.calls c (mem_of_find? hc)) hinsert
    have hdeleted := getReviewByQuizAndUser_eq_none_iff.mp hnone
    have hcondition : FreeOfDeleted s (.insert c.callId reviewId) ↔
        ¬ HasReview s.deletion.reviews c.request.quizId c.request.user.sub := by
      constructor
      · rintro hall ⟨review, hreview, hof⟩
        exact hdeleted review hreview hof (hall c hc review hreview hof)
      · intro hfree c' hc' review hreview hof
        obtain rfl := Option.some.inj (hc.symm.trans hc')
        exact absurd ⟨review, hreview, hof⟩ hfree
    rw [hcondition]
    rcases hcases with ⟨hhas, rfl⟩ | ⟨hfree, phase, rfl, -⟩
    · refine iff_of_false (fun hnot => hnot hhas) ?_
      rw [reported_answer_iff h]
      obtain ⟨active, hactive⟩ := Option.isSome_iff_exists.mp hlocked
      intro hall
      cases (hall active hactive).1
    · exact iff_of_true hfree (reported_of_same h rfl rfl rfl)
  | commit callId eventId =>
    obtain ⟨c, hc, rfl, hcommit⟩ := of_find?_bind hstep
    exact iff_of_true trivial (reported_commit h hinv hc hcommit)
  | deletion action =>
    obtain ⟨d, hd, rfl⟩ := Option.map_eq_some_iff.mp hstep
    exact iff_of_true trivial (reported_deletion h hd)
  | others completed ownerless =>
    cases hstep
    exact iff_of_true trivial (reported_of_same h rfl rfl rfl)

end Reports

/-! ## Runs -/

variable (hashtextextended : String → BitVec 64)

theorem reportedExactly_start (db : Database) :
    ReportedExactly (System.start db) (System.start db) := by
  refine ⟨fun _ ha => absurd ha List.not_mem_nil, (List.append_nil _).symm, ?_⟩
  intro quizId reviewId
  rfl

/-- **Which runs report conflicts exactly**: those in which no request comes to its insertion with a
deleted review of its user for its quiz. -/
theorem conflicts_reported_iff (db : Database) {actions : List Action} {t : System}
    (h : exec (System.step hashtextextended) (System.start db) actions = some t) :
    Always (System.step hashtextextended) (ReportedExactly (System.start db)) (System.start db)
        actions ↔
      Along (System.step hashtextextended) FreeOfDeleted (System.start db) actions :=
  along_iff_always (I := Inv hashtextextended) (fun _ _ _ hi hstep => hi.step hstep)
    (fun _ _ _ hi hp hstep => freeOfDeleted_iff hi hp hstep) h (.start db) (reportedExactly_start db)

/-! ## A user who reviews twice -/

def completedOnce : Database where
  quizzes := ⟨[⟨1, 10, "Capitals", false, some 100, none⟩], nodup_capitals⟩
  reviews := empty _
  reports := empty _
  events := empty _
  unannounced _ h _ := absurd h List.not_mem_nil
  ownerless := []
  completed := [(1, 20)]
  unique := List.nodup_nil
  unsubmitted _ _ _ := rfl

def review : Request := ⟨1, ⟨20, .user⟩, 4, none, by decide, nofun⟩

def reviewsAlone (callId : String) (reviewId : Uuid) (eventId : String) : List Action :=
  Action.begin callId review 5 :: List.replicate 4 (.proceed callId) ++
    [Action.insert callId reviewId, .commit callId eventId]

/-- The second request finds the review of the first. -/
theorem conflicts_reported_second : ∃ t,
    exec (System.step fun _ => 0) (System.start completedOnce)
        (reviewsAlone "a" 1 "e1" ++ .begin "b" review 6 :: List.replicate 4 (.proceed "b")) = some t ∧
      Always (System.step fun _ => 0) (ReportedExactly (System.start completedOnce))
        (System.start completedOnce)
        (reviewsAlone "a" 1 "e1" ++ .begin "b" review 6 :: List.replicate 4 (.proceed "b")) := by
  refine exists_of_read (fun t => t.answered.length) 2 (by decide +kernel) fun t ht _ => ?_
  exact (conflicts_reported_iff _ completedOnce ht).mpr (by decide +kernel)

def reviewsAgain : List Action :=
  reviewsAlone "a" 1 "e1" ++
    [Action.deletion (.begin "d" (.deleteReview 1 ⟨20, .user⟩) 6), .deletion (.proceed "d"),
      .deletion (.proceed "d"), .deletion (.proceed "d"), .deletion (.proceed "d"),
      .deletion (.commit "d" "e2"), .deletion (.proceed "d")] ++
    Action.begin "b" review 7 :: List.replicate 4 (.proceed "b") ++ [Action.insert "b" 2]

def Answer.thrown (a : Answer) : Option Thrown :=
  match a.result with
  | .error e => some e
  | .ok _ => none

/-- There is no review that is not deleted, and the second creation ends with the error of the
database. -/
theorem second_review_is_refused : ∃ t,
    exec (System.step fun _ => 0) (System.start completedOnce) reviewsAgain = some t ∧
      getReviewByQuizAndUser t.deletion.reviews 1 20 = none ∧
      t.answered.map (fun a => (a.callId, a.active, a.thrown)) =
        [("a", some false, none), ("b", some false, some (.query uniqueViolation))] ∧
      ¬ Always (System.step fun _ => 0) (ReportedExactly (System.start completedOnce))
          (System.start completedOnce) reviewsAgain := by
  refine exists_of_read (fun t => (getReviewByQuizAndUser t.deletion.reviews 1 20,
      t.answered.map fun a => (a.callId, a.active, a.thrown)))
    (none, [("a", some false, none), ("b", some false, some (.query uniqueViolation))])
    (by decide +kernel) fun t ht hread => ?_
  obtain ⟨hnone, hanswers⟩ := Prod.mk.inj hread
  refine ⟨hnone, hanswers, fun hall => ?_⟩
  have hmem : ("b", some false, some (.query uniqueViolation)) ∈
      t.answered.map fun a => (a.callId, a.active, a.thrown) := by
    rw [hanswers]
    exact List.mem_cons_of_mem _ (List.mem_singleton_self _)
  obtain ⟨a, ha, heq⟩ := List.mem_map.mp hmem
  obtain ⟨-, hrest⟩ := Prod.mk.inj heq
  obtain ⟨hactive, hthrown⟩ := Prod.mk.inj hrest
  have hexact := (hall reviewsAgain t (List.prefix_refl _) ht).exact a ha false hactive
  unfold Answer.thrown at hthrown
  split at hthrown
  · next e hresult =>
    obtain rfl := Option.some.inj hthrown
    obtain ⟨_, hok, -⟩ := hexact.2 (by rw [hresult]; exact fun hsame => by cases hsame)
    rw [hresult] at hok
    cases hok
  · cases hthrown

end QuizBackend.Review.Creation
