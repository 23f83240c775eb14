import QuizBackend.Lib.Run
import QuizBackend.Review.Tables

/-!
# Helpful votes

`addHelpfulVote` and `removeHelpfulVote` of `ReviewService` check that the user may vote and open a
transaction. In it they call the repository, which opens a transaction of its own, on another
connection: nobody gives it the client of the service's. The repository's transaction inserts or
deletes the vote, changes `helpful_count`, and commits; then the service's transaction inserts the row
of the outbox, and commits.

* `addHelpfulVote` of the repository is one statement: a vote that is there already is not inserted
  again, and the count is raised when one was inserted, whether or not the review is deleted.
* `removeHelpfulVote` deletes the vote and then lowers the count of a review that is not deleted and
  whose count is positive.

Transactions are READ COMMITTED. An insertion waits for one that has inserted or deleted the same vote
and not committed, a deletion likewise, and an `UPDATE` of a review waits for one that has written
the review; then each goes on with the row as it is. So the tables hold what is committed, and what is
locked is read off the phase of a request. The insertion into the outbox, and what the repository
reads when it has changed nothing, are part of the commit of the service's transaction.

Reviews are deleted meanwhile by the requests of `Deletion`, of which the `UPDATE` and the commit are
modelled here; events of other types enter the outbox, and its processor marks rows. Any statement may
fail.
-/

namespace QuizBackend.Review.HelpfulVotes

open Lib Outbox

/-! ## Votes -/

structure VoteRow where
  reviewId : Uuid
  userId : Uuid
  createdAt : Int

/-- The entry in `uq_review_helpful_votes_review_user`. -/
def VoteRow.pair (v : VoteRow) : Uuid × Uuid := (v.reviewId, v.userId)

abbrev Votes := Table (Uuid × Uuid) VoteRow VoteRow.pair

/-! ## Requests -/

inductive Request where
  | addHelpfulVote (reviewId userId : Uuid)
  | removeHelpfulVote (reviewId userId : Uuid)
  | deletion (reviewId : Uuid)

def Request.reviewId : Request → Uuid
  | .addHelpfulVote reviewId _ | .removeHelpfulVote reviewId _ | .deletion reviewId => reviewId

def Request.pair : Request → Option (Uuid × Uuid)
  | .addHelpfulVote reviewId userId | .removeHelpfulVote reviewId userId => some (reviewId, userId)
  | .deletion _ => none

def Request.delta : Request → Int
  | .addHelpfulVote .. => 1
  | .removeHelpfulVote .. => -1
  | .deletion _ => 0

inductive Phase where
  | begun
  | reviewed (review : ReviewRow)
  | checked
  | unchanged
  | wrote
  | touched (update : Option (Uuid × Int))
  /-- It has committed; the review was not deleted then, if `active`. -/
  | counted (quizId : Option Uuid) (active : Bool)
  | deleting

structure Call where
  callId : String
  request : Request
  nowIso : Int
  phase : Phase

def Call.votesOn (c : Call) : Option (Uuid × Uuid) :=
  match c.phase with
  | .wrote | .touched _ => c.request.pair
  | _ => none

def Call.updates (c : Call) : Option Uuid :=
  match c.phase with
  | .touched (some _) | .deleting => some c.request.reviewId
  | _ => none

structure Change where
  quizId : Option Uuid
  reviewId : Uuid
  delta : Int
  active : Bool
  deriving DecidableEq

/-- A request that has ended, with what it has changed and the rows its commit has inserted into the
outbox. -/
structure Ended where
  callId : String
  result : Except ReviewError Bool
  changed : Option Change
  rows : List OutboxRow
  deriving DecidableEq

def Call.change (c : Call) : Option Change :=
  match c.phase with
  | .counted quizId active => some ⟨quizId, c.request.reviewId, c.request.delta, active⟩
  | _ => none

structure System where
  quizzes : Quizzes
  reviews : Reviews
  votes : Votes
  events : OutboxEvents
  calls : Table String Call (·.callId)
  ended : List Ended

structure Database where
  quizzes : Quizzes
  reviews : Reviews
  votes : Votes
  events : OutboxEvents
  counted : ∀ review ∈ reviews.rows, review.deletedAt = none →
    review.helpfulCount = votes.rows.countP fun v => decide (v.reviewId = review.reviewId)

def System.start (db : Database) : System :=
  ⟨db.quizzes, db.reviews, db.votes, db.events, Table.empty _, []⟩

namespace System

variable (s : System)

/-! ## Steps -/

def finish (c : Call) (result : Except ReviewError Bool) (rows : List OutboxRow) : System :=
  { s with
    calls := s.calls.erase c.callId
    ended := s.ended ++ [⟨c.callId, result, c.change, rows⟩] }

def advance (callId : String) (phase : Phase) : System :=
  { s with calls := s.calls.modify callId (fun c => { c with phase }) fun _ => rfl }

def voteLocked (callId : String) (pair : Uuid × Uuid) : Bool :=
  s.calls.rows.any fun c => decide (c.callId ≠ callId) && decide (c.votesOn = some pair)

def reviewLocked (callId : String) (reviewId : Uuid) : Bool :=
  s.calls.rows.any fun c => decide (c.callId ≠ callId) && decide (c.updates = some reviewId)

def maxHelpfulCount : Int := 32767

def addHelpfulVote (c : Call) (reviewId userId : Uuid) : Option System :=
  match c.phase with
  | .begun => some <|
    match getReviewById s.reviews reviewId with
    | none => s.finish c (.error (.notFound reviewNotFoundMessage)) []
    | some review => s.advance c.callId (.reviewed review)
  | .reviewed review => some <|
    match assertQuizVisibleById s.quizzes review.quizId with
    | .error e => s.finish c (.error e) []
    | .ok _ =>
      if review.userId = userId then s.finish c (.error (.validation reviewSelfVoteMessage)) []
      else s.advance c.callId .checked
  | .checked =>
    if s.voteLocked c.callId (reviewId, userId) then none
    else some <|
      match s.votes.find? (reviewId, userId), s.reviews.find? reviewId with
      | some _, _ => s.advance c.callId .unchanged
      -- the foreign key
      | none, none => s.finish c (.error .database) []
      | none, some _ => s.advance c.callId .wrote
  | .wrote =>
    if s.reviewLocked c.callId reviewId then none
    else some <|
      match s.reviews.find? reviewId with
      | none => s.advance c.callId (.touched none)
      | some review =>
        if review.helpfulCount < maxHelpfulCount then
          s.advance c.callId (.touched (some (review.quizId, review.helpfulCount + 1)))
        else s.finish c (.error .database) []
  | .unchanged => some (s.finish c (.ok false) [])
  | _ => none

def removeHelpfulVote (c : Call) (reviewId userId : Uuid) : Option System :=
  match c.phase with
  | .begun => some <|
    match s.reviews.find? reviewId with
    | none => s.finish c (.error (.notFound reviewNotFoundMessage)) []
    | some _ => s.advance c.callId .checked
  | .checked =>
    if s.voteLocked c.callId (reviewId, userId) then none
    else some <|
      match s.votes.find? (reviewId, userId) with
      | none => s.advance c.callId .unchanged
      | some _ => s.advance c.callId .wrote
  | .wrote =>
    match (s.reviews.find? reviewId).filter fun review =>
      decide (0 < review.helpfulCount) && review.isActive with
    | none => some (s.advance c.callId (.touched none))
    | some review =>
      if s.reviewLocked c.callId reviewId then none
      else some (s.advance c.callId (.touched (some (review.quizId, review.helpfulCount - 1))))
  | .unchanged => some (s.finish c (.ok false) [])
  | _ => none

def deletion (c : Call) (reviewId : Uuid) : Option System :=
  match c.phase with
  | .begun =>
    match getReviewById s.reviews reviewId with
    | none => some (s.finish c (.error (.notFound reviewNotFoundMessage)) [])
    | some _ =>
      if s.reviewLocked c.callId reviewId then none else some (s.advance c.callId .deleting)
  | _ => none

def proceed (c : Call) : Option System :=
  match c.request with
  | .addHelpfulVote reviewId userId => s.addHelpfulVote c reviewId userId
  | .removeHelpfulVote reviewId userId => s.removeHelpfulVote c reviewId userId
  | .deletion reviewId => s.deletion c reviewId

def setHelpfulCount (reviews : Reviews) (reviewId : Uuid) (helpfulCount : Int) : Reviews :=
  reviews.modify reviewId (fun review => { review with helpfulCount }) fun _ => rfl

def writtenReviews (reviews : Reviews) (reviewId : Uuid) : Option (Uuid × Int) → Reviews
  | none => reviews
  | some (_, helpfulCount) => setHelpfulCount reviews reviewId helpfulCount

def writtenVotes (c : Call) : Votes :=
  match c.request with
  | .addHelpfulVote reviewId userId =>
    (s.votes.insert? ⟨reviewId, userId, c.nowIso⟩).getD s.votes
  | .removeHelpfulVote reviewId userId => s.votes.erase (reviewId, userId)
  | .deletion _ => s.votes

def commit (c : Call) : Option System :=
  match c.phase with
  | .touched update => some
    { s.advance c.callId (.counted (update.map Prod.fst)
        (getReviewById s.reviews c.request.reviewId).isSome) with
      votes := s.writtenVotes c
      reviews := writtenReviews s.reviews c.request.reviewId update }
  | .deleting => some
    { s.finish c (.ok true) [] with
      reviews := s.reviews.modify c.request.reviewId
        (fun review => { review with deletedAt := some c.nowIso }) fun _ => rfl }
  | _ => none

/-- The service's transaction commits, with the row it inserts when the repository has named a
quiz. -/
def announce (c : Call) (eventId : String) : Option System :=
  match c.phase with
  | .counted none _ => some (s.finish c (.ok true) [])
  | .counted (some quizId) _ =>
    match s.events.find? eventId with
    | some _ => none
    | none =>
      let events := insertEvent s.events (scheduleReviewHelpfulChanged eventId
        ⟨quizId, c.request.reviewId, c.request.delta⟩ c.nowIso)
      some { s.finish c (.ok true) (events.rows.drop s.events.rows.length) with events }
  | _ => none

end System

inductive Action where
  | begin (callId : String) (request : Request) (nowIso : Int)
  | proceed (callId : String)
  | commit (callId : String)
  | announce (callId eventId : String)
  | fail (callId : String)
  | changeQuiz (quiz : QuizRow)
  | schedule (e : NewEvent)
  | processed (eventId : String) (nowIso : Int)
  | retried (eventId message : String) (nowIso retryIso : Int)

def helpfulChanged : String := "review.helpful_changed"

def System.step (s : System) : Action → Option System
  | .begin callId request nowIso =>
    (s.calls.insert? ⟨callId, request, nowIso, .begun⟩).map fun calls => { s with calls }
  | .proceed callId => (s.calls.find? callId).bind s.proceed
  | .commit callId => (s.calls.find? callId).bind s.commit
  | .announce callId eventId => (s.calls.find? callId).bind fun c => s.announce c eventId
  | .fail callId => (s.calls.find? callId).map fun c => s.finish c (.error .database) []
  | .changeQuiz quiz => some { s with quizzes := s.quizzes.upsert quiz }
  | .schedule e =>
    if e.eventType = helpfulChanged then none
    else some { s with events := insertEvent s.events e }
  | .processed eventId nowIso => some
    { s with
      events := s.events.modify eventId (fun row =>
        if row.processedAt = none then
          { row with processedAt := some nowIso, lastAttemptAt := some nowIso, lastError := none }
        else row) fun row => by split <;> rfl }
  | .retried eventId message nowIso retryIso => some
    { s with
      events := s.events.modify eventId (fun row =>
        { row with
          lastError := some message, lastAttemptAt := some nowIso, nextAttemptAt := retryIso,
          attemptCount := row.attemptCount + 1 }) fun _ => rfl }

end QuizBackend.Review.HelpfulVotes
