import QuizBackend.Outbox.Events
import QuizBackend.Lib.Run
import Mathlib.Algebra.Order.Ring.Int

/-!
# The nine outbox processors

Each processor polls a batch, delivers every row of it and writes the outcome back. Five of them
(`attempt`, `ranking`, `coin`, `achievement`, `daily_challenge`) are `BaseOutboxProcessor` with
their own constants; `auth` overrides its selection and its failure path; `tournament`, `review`
and `notification` are written out by hand and differ in their guards, thresholds and delays.

A delivery reaches code of other modules (event buses, the XP producer, the audit log), so its
outcome is an input; what each `dispatch` decides before it gets there (an event type it does not
support, a payload it rejects) is modelled. No processor keeps a transaction open over a batch:
`FOR UPDATE SKIP LOCKED` runs on the pool and its locks are gone with the statement. The
processors therefore work on snapshots of rows, and selection, delivery and write-back of
different batches interleave freely.
-/

namespace QuizBackend.Outbox

open Lib

inductive Processor where
  | notification | attempt | ranking | coin | tournament | achievement | review
  | dailyChallenge | auth
  deriving DecidableEq

structure AuthSecurityConfig where
  outboxMaxRetries : Nat
  outboxBaseDelaySeconds : Nat

/-! ## Selection -/

/-- `processed_at IS NULL AND failed_at IS NULL AND next_attempt_at <= now`. -/
def isDue (now : Int) (row : OutboxRow) : Bool :=
  row.processedAt.isNone && row.failedAt.isNone && row.nextAttemptAt ≤ now

/-- The constants of a `BaseOutboxProcessor`; `eventType` is `buildAggregateFilter`. -/
structure BaseOutboxProcessor where
  batchSize : Nat
  maxRetries : Nat
  baseDelaySeconds : Nat
  aggregateType : String
  eventType : Option String

def attemptXpOutboxProcessor : BaseOutboxProcessor :=
  { batchSize := 100, maxRetries := 8, baseDelaySeconds := 30, aggregateType := "attempt",
    eventType := some "attempt.xp_to_publish" }

def rankingOutboxProcessor : BaseOutboxProcessor :=
  { batchSize := 100, maxRetries := 8, baseDelaySeconds := 30, aggregateType := "ranking",
    eventType := none }

def coinOutboxProcessor : BaseOutboxProcessor :=
  { batchSize := 100, maxRetries := 8, baseDelaySeconds := 30, aggregateType := "coin",
    eventType := none }

def achievementOutboxProcessor : BaseOutboxProcessor :=
  { batchSize := 100, maxRetries := 8, baseDelaySeconds := 30, aggregateType := "Achievement",
    eventType := none }

def dailyChallengeXpOutboxProcessor : BaseOutboxProcessor :=
  { batchSize := 100, maxRetries := 8, baseDelaySeconds := 30,
    aggregateType := "daily_challenge", eventType := some "daily_challenge.xp_to_publish" }

def BaseOutboxProcessor.buildPendingWhere (b : BaseOutboxProcessor) (now : Int)
    (row : OutboxRow) : Bool :=
  row.aggregateType == b.aggregateType && isDue now row &&
    match b.eventType with
    | some t => row.eventType == t
    | none => true

/-- The `WHERE` of each processor's poll. `auth` and `notification` name no aggregate, `review`
does not ask for `failed_at IS NULL`. -/
def Processor.pendingWhere (now : Int) (row : OutboxRow) : Processor → Bool
  | .notification => isDue now row
  | .auth => isDue now row
  | .attempt => attemptXpOutboxProcessor.buildPendingWhere now row
  | .ranking => rankingOutboxProcessor.buildPendingWhere now row
  | .coin => coinOutboxProcessor.buildPendingWhere now row
  | .achievement => achievementOutboxProcessor.buildPendingWhere now row
  | .dailyChallenge => dailyChallengeXpOutboxProcessor.buildPendingWhere now row
  | .tournament => row.aggregateType == "tournament" && isDue now row
  | .review =>
    row.aggregateType == "review" && row.processedAt.isNone && row.nextAttemptAt ≤ now

/-- The batch of a run that starts at `now`; every processor's limit is 100. -/
def Processor.batch (p : Processor) (events : OutboxEvents) (now : Int) : List OutboxRow :=
  poll events (fun row => p.pendingWhere now row) 100

/-! ## Delivery -/

def authDispatchKeys : List String :=
  ["password_reset:password_reset_completed", "password_reset:password_reset_requested",
   "account:account_deleted", "account:password_changed", "session:session_revoked",
   "session:all_other_sessions_revoked", "oauth_account:oauth_account_created",
   "oauth_account:oauth_account_linked", "oauth_login:oauth_login",
   "oauth_login:oauth_login_failed"]

def authKey (row : OutboxRow) : String := s!"{row.aggregateType}:{row.eventType}"

def unsupportedKey (row : OutboxRow) : String :=
  s!"Unsupported outbox event dispatcher key: {row.aggregateType}:{row.eventType}"

/-- The event types `TournamentOutboxProcessorService.deserializePayload` knows. -/
def tournamentEventTypes : List String :=
  ["tournament.joined", "tournament.participant.withdrawn", "tournament.starting_soon",
   "tournament.completed", "tournament.won"]

def hasQuizId (row : OutboxRow) : Bool :=
  match row.field "quizId" with
  | some (.str s) => !s.isEmpty
  | _ => false

/-- Errors leave as a fresh `Error`, as in `dispatchInStorage` and its copies. -/
def rewrapped : Delivery → Delivery
  | .ok () => .ok ()
  | .error e => .error e.rewrap

/-- `dispatch`, with the outcome `out` of the code behind it. -/
def Processor.dispatch (row : OutboxRow) (out : Delivery) : Processor → Delivery
  | .notification => out
  | .attempt => out
  | .dailyChallenge => out
  | .ranking => rewrapped out
  | .coin =>
    if row.eventType ∈ ["coin.added", "coin.spent"] then rewrapped out
    else .error (.error s!"Unsupported coin outbox event type: {row.eventType}")
  | .achievement =>
    if row.eventType ∈ ["achievement.awarded", "badge.revoked", "badge.restored"] then
      rewrapped out
    else .error (.error s!"Unsupported achievement outbox event type: {row.eventType}")
  | .tournament =>
    if row.eventType ∈ tournamentEventTypes then out
    else .error (.error s!"unknown tournament event type: {row.eventType}")
  | .review =>
    if hasQuizId row then out else .error (.reviewPayload "payload missing quizId")
  | .auth =>
    if authKey row ∈ authDispatchKeys then rewrapped out else .error (.error (unsupportedKey row))

/-! ## Write-back -/

def computeNextAttempt (attemptCount : Nat) (now : Int) (baseDelaySeconds : Nat) : Int :=
  now + baseDelaySeconds * 2 ^ (attemptCount - 1) * 1000

/-- An `UPDATE` guarded by `processed_at IS NULL`. -/
def unlessProcessed (f : OutboxRow → OutboxRow) (row : OutboxRow) : OutboxRow :=
  if row.processedAt.isNone then f row else row

def setProcessed (now : Int) (row : OutboxRow) : OutboxRow :=
  { row with processedAt := some now, lastAttemptAt := some now }

/-- `SET attempt_count, last_attempt_at, last_error, next_attempt_at`. -/
def setRetry (attemptCount : Nat) (now next : Int) (lastError : String) (row : OutboxRow) :
    OutboxRow :=
  { row with attemptCount, lastAttemptAt := some now, lastError := some lastError,
             nextAttemptAt := next }

def setDlq (attemptCount : Nat) (now next : Int) (lastError reason : String) (row : OutboxRow) :
    OutboxRow :=
  { setRetry attemptCount now next lastError row with
    failedAt := some now, dlqReason := some reason }

/-- `BaseOutboxProcessor.isIdempotencyConflict` on a message. -/
def conflictMessage (message : String) : Bool :=
  mentions message ["duplicate", "23505", "unique constraint", "unique violation"]

def isIdempotencyConflict : Thrown → Bool
  | .idempotencyConflict _ => true
  | e => (e.message.map conflictMessage).getD false

/-- `CoinOutboxProcessorService.isIdempotencyConflict`, which goes by the message alone. -/
def coinIdempotencyConflict (e : Thrown) : Bool := (e.message.map conflictMessage).getD false

/-- `TournamentOutboxProcessorService.isIdempotencyConflict`. -/
def tournamentIdempotencyConflict (e : Thrown) : Bool :=
  (e.message.map fun m => mentions m ["duplicate", "unique", "23505", "idempotency"]).getD false

def isDeterministicFailure : Thrown → Bool
  | .payloadValidation _ => true
  | _ => false

def BaseOutboxProcessor.handleFailure (b : BaseOutboxProcessor) (snapshot : OutboxRow) (e : Thrown)
    (now : Int) : OutboxRow → OutboxRow :=
  let next := snapshot.attemptCount + 1
  unlessProcessed <|
    if isDeterministicFailure e || next > b.maxRetries then
      setDlq next now now e.text
        (if isDeterministicFailure e then s!"deterministic_failure:{e.text}"
          else s!"exhausted_retries:{e.text}")
    else setRetry next now (computeNextAttempt next now b.baseDelaySeconds) e.text

/-- The write-back of `BaseOutboxProcessor.runProcessPendingEvents`, with the subclass's conflict
test. -/
def BaseOutboxProcessor.writeBack (b : BaseOutboxProcessor) (conflict : Thrown → Bool)
    (snapshot : OutboxRow) (now : Int) : Delivery → OutboxRow → OutboxRow
  | .ok () => unlessProcessed (setProcessed now)
  | .error e =>
    if conflict e then unlessProcessed (setProcessed now) else b.handleFailure snapshot e now

/-- The write-back of `OutboxProcessorService` (`auth`), whose `handleFailure` gives up one
attempt earlier and never tests for a deterministic failure. -/
def authWriteBack (config : AuthSecurityConfig) (snapshot : OutboxRow) (now : Int) :
    Delivery → OutboxRow → OutboxRow
  | .ok () => unlessProcessed (setProcessed now)
  | .error e =>
    let next := snapshot.attemptCount + 1
    let lastError := e.message.getD "Unknown error"
    if isIdempotencyConflict e then unlessProcessed (setProcessed now)
    else if next ≥ config.outboxMaxRetries then
      unlessProcessed (setDlq next now now lastError s!"exhausted_retries:{lastError}")
    else
      unlessProcessed (setRetry next now
        (computeNextAttempt next now config.outboxBaseDelaySeconds) lastError)

/-- The write-back of `TournamentOutboxProcessorService`: `markProcessed` is not guarded. -/
def tournamentWriteBack (snapshot : OutboxRow) (at_ : Int) : Delivery → OutboxRow → OutboxRow
  | .ok () => setProcessed at_
  | .error e =>
    let next := snapshot.attemptCount + 1
    let nextAt := computeNextAttempt next at_ 30
    if tournamentIdempotencyConflict e then setProcessed at_
    else if next > 8 then
      unlessProcessed (setDlq next at_ nextAt e.text s!"exhausted_retries:{e.text}")
    else unlessProcessed (setRetry next at_ nextAt e.text)

def reviewBackoffMs (attemptCount : Nat) : Nat := min (30000 * 2 ^ (attemptCount - 1)) 900000

def isReviewPayloadError : Thrown → Bool
  | .reviewPayload _ => true
  | _ => false

/-- The write-back of `ReviewOutboxProcessorService`. Its dead-letter `UPDATE` writes `NULL` into
`next_attempt_at`, a `NOT NULL` column: the statement fails and the row stays. -/
def reviewWriteBack (snapshot : OutboxRow) (now at_ : Int) : Delivery → OutboxRow → OutboxRow
  | .ok () => unlessProcessed fun row => { setProcessed now row with lastError := none }
  | .error e =>
    let next := snapshot.attemptCount + 1
    if isReviewPayloadError e || next ≥ 10 then id
    else setRetry next now (at_ + reviewBackoffMs next) (e.message.getD "unknown")

def calculateBackoff (attemptCount : Nat) : Nat := min (1000 * 2 ^ (attemptCount - 1)) 60000

/-- The write-back of `NotificationOutboxAdapter.processEvent`, by `event_id` alone. -/
def notificationWriteBack (snapshot : OutboxRow) (at_ : Int) : Delivery → OutboxRow → OutboxRow
  | .ok () => fun row =>
    { setProcessed at_ row with attemptCount := snapshot.attemptCount + 1, lastError := none }
  | .error e => fun row =>
    let next := snapshot.attemptCount + 1
    let final := next ≥ 5
    { setRetry next at_ (at_ + calculateBackoff next) e.text row with
      failedAt := if final then some at_ else none
      dlqReason := if final then some "Max retry attempts (5) exceeded" else none }

/-- The `UPDATE` that follows a delivery: `now` is the start of the run, `at_` the moment of the
write. -/
def Processor.writeBack (config : AuthSecurityConfig) (snapshot : OutboxRow) (now at_ : Int)
    (d : Delivery) : Processor → OutboxRow → OutboxRow
  | .notification => notificationWriteBack snapshot at_ d
  | .attempt => attemptXpOutboxProcessor.writeBack isIdempotencyConflict snapshot now d
  | .ranking => rankingOutboxProcessor.writeBack isIdempotencyConflict snapshot now d
  | .coin => coinOutboxProcessor.writeBack coinIdempotencyConflict snapshot now d
  | .achievement => achievementOutboxProcessor.writeBack isIdempotencyConflict snapshot now d
  | .dailyChallenge =>
    dailyChallengeXpOutboxProcessor.writeBack isIdempotencyConflict snapshot now d
  | .tournament => tournamentWriteBack snapshot at_ d
  | .review => reviewWriteBack snapshot now at_ d
  | .auth => authWriteBack config snapshot now d

end QuizBackend.Outbox
