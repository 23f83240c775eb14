import QuizBackend.Attempt.Tables
import QuizBackend.Lib.Run

/-!
# Attempt requests as interleaved steps

Each request to the attempt module is a sequence of database steps, and the steps of different
requests interleave freely. A `Request` is a request at one of its program points: what it has
read so far, and which statement it runs next.

* A plain `SELECT` is one step. It sees the latest committed state and takes no lock, also the
  one inside `submitAnswer`'s transaction whose result the source calls `locked`.
* A single `INSERT` or `DELETE` statement is one step, and so is a transaction whose statements
  after the first read only insert rows (`submitAnswer`) or are serialised by the row they insert
  first (`startRoundAttemptTx`).
* `abandonAttempt` and `completeAttemptAndSideEffects` hold the row lock of the attempt from their
  `UPDATE` to their commit: two program points, `…Commit` being the one with the lock. An `UPDATE`
  of a locked row waits, and then tests its `WHERE` on what the other transaction has committed.
  `completeAttemptAndSideEffects` counts the completed attempts in a statement of its own before.
* The writes of a transaction become visible when it commits, so they are applied there. The
  foreign-key check of an inserted answer takes `FOR KEY SHARE`, which no `UPDATE` here conflicts
  with.
* At any point a request can fail with the database, and its transaction is rolled back.

The in-process events a completion emits follow its commit without another database step and are
recorded with it.
-/

namespace QuizBackend.Attempt

open Lib Outbox

/-! ## Messages and errors (`attempt.constants.ts`, `attempt-domain.errors.ts`) -/

def quizNotPublishedMessage := "This quiz is not published and cannot be attempted"
def attemptNotFoundMessage := "Quiz attempt not found"
def attemptForbiddenMessage := "You do not have permission to access this attempt"
def attemptAlreadyStartedMessage := "You already have an active attempt for this quiz version"
def attemptOptionInvalidMessage := "Selected option does not belong to this question"
def attemptQuestionAlreadyAnsweredMessage :=
  "This question has already been answered in this attempt"
def attemptNotStartedOrFinishedMessage := "Only started attempts can be abandoned"
def attemptQuestionInvalidMessage := "Question is invalid for this attempt"
def attemptAnswerNotFoundMessage := "Answer to withdraw not found"

inductive AttemptError where
  | notFound (message : String)
  | forbidden (message : String)
  | notActive (message : String)
  | alreadyStarted (message : String)
  | questionAlreadyAnswered (message : String)
  | validation (message : String)
  | quizNotPublished (message : String)
  | questionInvalid (message : String)
  | answerNotFound (message : String)
  | referencedEntityNotFound (tournamentId : Uuid)
  | database
  deriving DecidableEq

/-! ## Transitions (`attempt-transitions.ts`) -/

def allowedAttemptTransitions : AttemptStatus → List AttemptStatus
  | .started => [.completed, .abandoned]
  | .completed => []
  | .abandoned => []

def AttemptStatus.text : AttemptStatus → String
  | .started => "started"
  | .completed => "completed"
  | .abandoned => "abandoned"

def assertAttemptTransition (fromStatus toStatus : AttemptStatus) : Except AttemptError Unit :=
  if toStatus ∈ allowedAttemptTransitions fromStatus then .ok ()
  else .error (.notActive (attemptNotStartedOrFinishedMessage ++
    " (from=" ++ fromStatus.text ++ " to=" ++ toStatus.text ++ ")"))

/-! ## Requests -/

inductive UserRole where
  | admin | moderator | user
  deriving DecidableEq

structure JwtPayload where
  sub : Uuid
  role : UserRole
  deriving DecidableEq

structure AttemptDetail where
  attemptId : Uuid
  userId : Uuid
  quizVersionId : Uuid
  quizId : Uuid
  status : AttemptStatus
  startedAt : Int
  passingScorePercent : Int
  rewardXp : Int
  deriving DecidableEq

inductive Request where
  | start (quizId : Uuid) (user : JwtPayload) (contextType : AttemptContextType)
      (contextRefId : Option Uuid) (nowIso : Int)
  | startInsert (p : StartParams)
  | startRound (p : RoundParams)
  | submit (user : JwtPayload) (p : AnswerParams)
  | submitTx (p : AnswerParams)
  | submitInsert (p : AnswerParams)
  | withdraw (attemptId questionId : Uuid) (user : JwtPayload)
  | withdrawFind (attemptId questionId : Uuid)
  | withdrawDelete (attemptId questionId : Uuid)
  | abandon (attemptId : Uuid) (user : JwtPayload) (nowIso : Int)
  | abandonTx (p : AbandonParams)
  | abandonCommit (p : AbandonParams)
  | complete (attemptId : Uuid) (user : JwtPayload) (nowIso : Int)
  | completeScore (detail : AttemptDetail) (nowIso : Int)
  | completeTx (p : CompletionParams)
  | completeUpdate (p : CompletionParams) (preCompletionCount : Nat)
  | completeCommit (p : CompletionParams) (preCompletionCount : Nat)
  | done
  | failed (error : AttemptError)
  deriving DecidableEq

namespace Request

def isNew : Request → Bool
  | start .. | startRound .. | submit .. | withdraw .. | abandon .. | complete .. => true
  | _ => false

def isOver : Request → Bool
  | done | failed _ => true
  | _ => false

def locks : Request → Option Uuid
  | abandonCommit p => some p.attemptId
  | completeCommit p _ => some p.attemptId
  | _ => none

end Request

/-! ## The statements that only read -/

section Reads

variable (cat : Catalog) (db : Db)

/-- `getAttemptDetailById`: an attempt on a quiz that is not deleted. -/
def getAttemptDetailById (attemptId : Uuid) : Option AttemptDetail :=
  (db.quizAttempts.find? attemptId).bind fun row =>
  (cat.version row.quizVersionId).bind fun version =>
  if cat.quizDeleted version.quizId then none
  else some
    { attemptId := row.attemptId, userId := row.userId, quizVersionId := row.quizVersionId,
      quizId := version.quizId, status := row.status, startedAt := row.startedAt,
      passingScorePercent := version.passingScorePercent, rewardXp := version.rewardXp }

/-- `attempt.userId !== user.sub && user.role !== 'admin'` -/
def forbidden (userId : Uuid) (user : JwtPayload) : Bool :=
  userId ≠ user.sub && user.role ≠ .admin

def minQuestionsToPublish : Nat := 5

/-- The reference `mapAttemptContextReference` finds exists. -/
def contextReferenceExists (contextType : AttemptContextType) (contextRefId : Option Uuid) : Bool :=
  match contextType, contextRefId with
  | .tournament, some id => cat.tournamentExists id
  | _, _ => true

def startAttempt (quizId : Uuid) (user : JwtPayload) (contextType : AttemptContextType)
    (contextRefId : Option Uuid) (nowIso : Int) : Request :=
  match cat.publishedVersionId quizId with
  | none => .failed (.quizNotPublished quizNotPublishedMessage)
  | some quizVersionId =>
    if cat.questionCount quizVersionId < minQuestionsToPublish then
      .failed (.quizNotPublished quizNotPublishedMessage)
    else if (db.getActiveAttemptByUserAndVersion user.sub quizVersionId).isSome then
      .failed (.alreadyStarted attemptAlreadyStartedMessage)
    else if !contextReferenceExists cat contextType contextRefId then
      .failed (.referencedEntityNotFound (contextRefId.getD 0))
    else .startInsert { userId := user.sub, quizVersionId, contextType, contextRefId, nowIso }

/-- The checks `submitAnswer` and `withdrawAnswer` begin with. -/
def activeAttemptOf (attemptId : Uuid) (user : JwtPayload) : Except AttemptError AttemptRow :=
  match db.quizAttempts.find? attemptId with
  | none => .error (.notFound attemptNotFoundMessage)
  | some attempt =>
    if forbidden attempt.userId user then .error (.forbidden attemptForbiddenMessage)
    else if attempt.status ≠ .started then
      .error (.notActive attemptNotStartedOrFinishedMessage)
    else .ok attempt

/-- `submitAnswer` of the service, up to the transaction. -/
def submitAnswer (user : JwtPayload) (p : AnswerParams) : Request :=
  match activeAttemptOf db p.attemptId user with
  | .error e => .failed e
  | .ok attempt =>
    if cat.questionVersionId p.questionId ≠ some attempt.quizVersionId then
      .failed (.questionInvalid attemptQuestionInvalidMessage)
    else
      match p.selectedOptionId with
      | none => .submitTx p
      | some optionId =>
        if (cat.option optionId).map (·.questionId) = some p.questionId then .submitTx p
        else .failed (.validation attemptOptionInvalidMessage)

def withdrawAnswer (attemptId questionId : Uuid) (user : JwtPayload) : Request :=
  match activeAttemptOf db attemptId user with
  | .error e => .failed e
  | .ok _ => .withdrawFind attemptId questionId

/-- The checks `abandonAttempt` and `completeAttempt` begin with. -/
def transitionOf (attemptId : Uuid) (user : JwtPayload) (toStatus : AttemptStatus) :
    Except AttemptError AttemptDetail :=
  match getAttemptDetailById cat db attemptId with
  | none => .error (.notFound attemptNotFoundMessage)
  | some detail =>
    if forbidden detail.userId user then .error (.forbidden attemptForbiddenMessage)
    else (assertAttemptTransition detail.status toStatus).map fun _ => detail

/-- `abandonAttempt` of the service, up to the transaction. It passes on the caller's id. -/
def abandonAttempt (attemptId : Uuid) (user : JwtPayload) (nowIso : Int) : Request :=
  match transitionOf cat db attemptId user .abandoned with
  | .error e => .failed e
  | .ok _ => .abandonTx { attemptId, userId := user.sub, nowIso }

/-- `completeAttempt`, up to the read of the scoring data. -/
def completeAttempt (attemptId : Uuid) (user : JwtPayload) (nowIso : Int) : Request :=
  match transitionOf cat db attemptId user .completed with
  | .error e => .failed e
  | .ok detail => .completeScore detail nowIso

def completionParams (detail : AttemptDetail) (scoring : ScoringData) (nowIso : Int)
    (correlationId : String) : CompletionParams :=
  let scorePercent := calculateScorePercent scoring.correctCount scoring.totalAnswers
  let xpEarned := calculateXpEarned scorePercent detail.passingScorePercent detail.rewardXp
  let idempotencyKey := xpIdempotencyKey detail.userId detail.attemptId
  { attemptId := detail.attemptId, scorePercent, correctCount := scoring.correctCount,
    timeTakenMs := calculateTimeTakenMs detail.startedAt nowIso, xpEarned, nowIso,
    quizId := detail.quizId, userId := detail.userId,
    xpOutbox := if 0 < xpEarned then some { idempotencyKey, correlationId } else none,
    quizVersionId := detail.quizVersionId, totalAnswers := scoring.totalAnswers }

def referenced (p : StartParams) : Bool :=
  (cat.version p.quizVersionId).isSome && (db.users.find? p.userId).isSome

end Reads

/-! ## Domain events -/

def quizCompletionMilestones : List Nat := [10, 50, 100, 250, 500, 1000]

inductive DomainEvent where
  | attemptCompleted (p : CompletionParams)
  | quizMilestone (userId : Uuid) (completedCount milestone : Nat) (nowIso : Int)
  deriving DecidableEq

/-- What `completeAttempt` emits once its transaction has committed. -/
def completionEvents (p : CompletionParams) (preCompletionCount : Nat) : List DomainEvent :=
  let newCompletedCount := preCompletionCount + 1
  .attemptCompleted p ::
    match quizCompletionMilestones.find? fun m => newCompletedCount = m with
    | some crossedMilestone =>
      [.quizMilestone p.userId newCompletedCount crossedMilestone p.nowIso]
    | none => []

/-! ## Steps -/

/-- What a step of a request does: the write it commits, the point it goes on from, and the events
it emits. -/
structure Progress where
  write : Write
  request : Request
  emitted : List DomainEvent

def Progress.goto (r : Request) : Progress := ⟨.nothing, r, []⟩

def Progress.commit (w : Write) : Progress := ⟨w, .done, []⟩

/-- The next statement of a request; `none` when it has to wait for a row lock, when it is over,
and for a draw of ids that are taken. -/
def Request.next (cat : Catalog) (db : Db) (locked : Uuid → Bool) (d : Drawn) :
    Request → Option Progress
  | .start quizId user contextType contextRefId nowIso =>
    some (.goto (startAttempt cat db quizId user contextType contextRefId nowIso))
  | .startInsert p =>
    if (db.quizAttempts.find? d.id).isSome then none
    else if referenced cat db p then some (.commit (.createAttempt d.id p))
    else some (.goto (.failed .database))
  | .startRound p =>
    -- the `INSERT … ON CONFLICT` or the `FOR UPDATE` after it waits for another transaction on the
    -- same participant, so the `attempt_id` read here is the committed one
    if ((db.roundParticipants.find? (p.roundId, p.participantId)).bind (·.attemptId)).isSome then
      some (.goto .done)
    else if (db.quizAttempts.find? d.id).isSome then none
    else if referenced cat db p.start then some (.commit (.startRoundAttempt d p))
    else some (.goto (.failed .database))
  | .submit user p => some (.goto (submitAnswer cat db user p))
  | .submitTx p =>
    match db.quizAttempts.find? p.attemptId with
    | some attempt =>
      if attempt.status = .started then some (.goto (.submitInsert p))
      else some (.goto (.failed (.notActive attemptNotStartedOrFinishedMessage)))
    | none => some (.goto (.failed (.notActive attemptNotStartedOrFinishedMessage)))
  | .submitInsert p =>
    if ¬ ∀ t ∈ p.timeTakenMs, IsInt4 t then some (.goto (.failed .database))
    else if (db.quizAttemptAnswers.find? (p.attemptId, p.questionId)).isSome then
      some (.goto
        (.failed (.questionAlreadyAnswered attemptQuestionAlreadyAnsweredMessage)))
    else some (.commit (.submitAnswer d p))
  | .withdraw attemptId questionId user =>
    some (.goto (withdrawAnswer db attemptId questionId user))
  | .withdrawFind attemptId questionId =>
    match db.quizAttemptAnswers.find? (attemptId, questionId) with
    | some _ => some (.goto (.withdrawDelete attemptId questionId))
    | none => some (.goto (.failed (.answerNotFound attemptAnswerNotFoundMessage)))
  | .withdrawDelete attemptId questionId => some (.commit (.deleteAnswer attemptId questionId))
  | .abandon attemptId user nowIso =>
    some (.goto (abandonAttempt cat db attemptId user nowIso))
  | .abandonTx p =>
    if locked p.attemptId then none
    else
      match db.quizAttempts.find? p.attemptId with
      | some attempt =>
        if attempt.userId = p.userId ∧ attempt.status = .started then
          some (.goto (.abandonCommit p))
        else some (.goto (.failed (.notFound attemptNotFoundMessage)))
      | none => some (.goto (.failed (.notFound attemptNotFoundMessage)))
  | .abandonCommit p => some (.commit (.abandonAttempt d p))
  | .complete attemptId user nowIso =>
    some (.goto (completeAttempt cat db attemptId user nowIso))
  | .completeScore detail nowIso =>
    some (.goto (.completeTx (completionParams detail
      (db.getAttemptAnswerScoringData cat detail.attemptId) nowIso d.correlationId)))
  | .completeTx p => some (.goto (.completeUpdate p (db.completedCount p.userId)))
  | .completeUpdate p preCompletionCount =>
    if ¬ IsInt4 p.timeTakenMs then some (.goto (.failed .database))
    else if locked p.attemptId then none
    else
      match db.quizAttempts.find? p.attemptId with
      | some attempt =>
        if attempt.status = .started then some (.goto (.completeCommit p preCompletionCount))
        else some (.goto (.failed (.notActive attemptNotStartedOrFinishedMessage)))
      | none => some (.goto (.failed (.notActive attemptNotStartedOrFinishedMessage)))
  | .completeCommit p preCompletionCount =>
    if (db.outboxEvents.find? d.eventId).isSome then none
    else some ⟨.completeAttempt d p, .done, completionEvents p preCompletionCount⟩
  | .done => none
  | .failed _ => none

/-! ## The system -/

structure State where
  db : Db
  requests : List Request
  emitted : List DomainEvent

def State.locked (s : State) (attemptId : Uuid) : Bool :=
  s.requests.any fun r => r.locks = some attemptId

inductive Action where
  | arrive (r : Request)
  | advance (i : Nat) (d : Drawn)
  | abort (i : Nat)
  | writeBack (eventId : String) (c : DeliveryColumns)

structure Outcome where
  write : Write
  requests : List Request
  emitted : List DomainEvent

def State.outcome (cat : Catalog) (s : State) : Action → Option Outcome
  | .arrive r => if r.isNew then some ⟨.nothing, s.requests ++ [r], []⟩ else none
  | .advance i d =>
    match s.requests[i]? with
    | some r =>
      match r.next cat s.db s.locked d with
      | some next => some ⟨next.write, s.requests.set i next.request, next.emitted⟩
      | none => none
    | none => none
  | .abort i =>
    match s.requests[i]? with
    | some r =>
      if r.isOver then none else some ⟨.nothing, s.requests.set i (.failed .database), []⟩
    | none => none
  | .writeBack eventId c => some ⟨.writeBack eventId c, s.requests, []⟩

def step (cat : Catalog) (s : State) (a : Action) : Option State :=
  (s.outcome cat a).map fun o =>
    { db := s.db.apply o.write, requests := o.requests, emitted := s.emitted ++ o.emitted }

def State.writes (cat : Catalog) (s : State) (a : Action) : Write :=
  match s.outcome cat a with
  | some o => o.write
  | none => .nothing

def State.initial (users : Table Uuid Streak.UserRow Streak.UserRow.userId)
    (roundParticipants : Table (Uuid × Uuid) RoundParticipantRow RoundParticipantRow.key) :
    State :=
  ⟨Db.initial users roundParticipants, [], []⟩

end QuizBackend.Attempt
