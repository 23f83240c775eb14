import QuizBackend.Lib.Run
import QuizBackend.Lib.Uuid
import QuizBackend.Lib.Rows
import QuizBackend.Lib.Exclusive
import Mathlib.Data.List.Sort

/-!
# Instances of a quiz (`instance.service.ts`, `quiz-instance.repository.ts`)

A host opens an instance, players join it, a countdown is started, and the host or the scheduler sets
it running. Status changes go through one `UPDATE`, which asks for the version that was read before;
`joinInstanceAtomic` locks the row of the instance instead.

* A `SELECT` and the `UPDATE` of `updateInstanceStatus` are one step each, and so are the transactions:
  `createInstanceWithHost` only inserts, and `joinInstanceAtomic` holds the row of the instance from
  its first statement, for which every `UPDATE` of the instance and every other join has to wait.
* An instance's events are emitted right after its `UPDATE`, without another await, and are recorded
  with it.
* A tick of the scheduler reads the due countdowns and then completes each of them in a run of its
  own. That it takes them ten at a time restricts only when the runs begin, and is left out.
* `nowIso` is taken before the first statement. There is one clock, and any time can pass between
  steps. At any point a request can fail with the database.

Who may create instances for which quiz, the events of players, notifications and the count of players
that is sent along with them are left out. Players keep the status `joined` they come with: attempts,
which change it, are not part of this.
-/

namespace QuizBackend.Instance

open Lib

/-! ## Tables -/

inductive InstanceStatus
  | opened
  | countdown
  | running
  | closed
  | finished
  deriving DecidableEq

inductive PlayerStatus
  | joined
  | ready
  | playing
  | finished
  | disconnected
  deriving DecidableEq

structure QuizInstanceRow where
  instanceId : Uuid
  quizVersionId : Uuid
  hostUserId : Uuid
  maxPlayers : Option Int
  status : InstanceStatus := .opened
  createdAt : Int
  startedAt : Option Int := none
  closedAt : Option Int := none
  updatedAt : Int
  countdownStartedAt : Option Int := none
  version : Int := 1

def QuizInstanceRow.Valid (row : QuizInstanceRow) : Prop :=
  (∀ n ∈ row.maxPlayers, 0 < n ∧ IsInt4 n) ∧
    (∀ started ∈ row.startedAt, ∀ closed ∈ row.closedAt, started ≤ closed) ∧
    0 ≤ row.version ∧ IsInt4 row.version ∧
    (row.status = .countdown ∧ row.countdownStartedAt ≠ none ∨
      row.status ≠ .countdown ∧ row.countdownStartedAt = none)

instance (row : QuizInstanceRow) : Decidable row.Valid :=
  inferInstanceAs (Decidable (_ ∧ _ ∧ _ ∧ _ ∧ _))

structure QuizInstancePlayerRow where
  instancePlayerId : Uuid
  instanceId : Uuid
  userId : Uuid
  status : PlayerStatus := .joined
  joinedAt : Int
  deriving DecidableEq

/-- The key of `uq_quiz_instance_players_instance_user`. -/
def QuizInstancePlayerRow.key (row : QuizInstancePlayerRow) : Uuid × Uuid :=
  (row.instanceId, row.userId)

structure Db where
  quizInstances : Table Uuid QuizInstanceRow (·.instanceId)
  quizInstancePlayers : Table (Uuid × Uuid) QuizInstancePlayerRow QuizInstancePlayerRow.key

def Db.empty : Db := ⟨Table.empty _, Table.empty _⟩

def Db.countPlayers (db : Db) (instanceId : Uuid) : Nat :=
  db.quizInstancePlayers.rows.countP fun row => row.instanceId = instanceId ∧ row.status = .joined

/-- The parameters of `updateInstanceStatus`; `countdownStartedAt` is absent, `null` or an instant. -/
structure StatusUpdate where
  status : InstanceStatus
  nowIso : Int
  startedAt : Option Int := none
  closedAt : Option Int := none
  countdownStartedAt : Option (Option Int) := none
  expectedVersion : Int

def QuizInstanceRow.update (u : StatusUpdate) (row : QuizInstanceRow) : QuizInstanceRow :=
  { row with
    status := u.status, updatedAt := u.nowIso, version := row.version + 1
    startedAt := u.startedAt.or row.startedAt, closedAt := u.closedAt.or row.closedAt
    countdownStartedAt := u.countdownStartedAt.getD row.countdownStartedAt }

theorem QuizInstanceRow.update_instanceId (u : StatusUpdate) (row : QuizInstanceRow) :
    (row.update u).instanceId = row.instanceId := rfl

inductive Write
  | nothing
  | createInstanceWithHost (row : QuizInstanceRow) (host : QuizInstancePlayerRow)
  | updateInstanceStatus (instanceId : Uuid) (u : StatusUpdate)
  | insertPlayer (player : QuizInstancePlayerRow)

def Db.apply (db : Db) : Write → Db
  | .nothing => db
  | .createInstanceWithHost row host =>
    ⟨(db.quizInstances.insert? row).getD db.quizInstances,
      (db.quizInstancePlayers.insert? host).getD db.quizInstancePlayers⟩
  | .updateInstanceStatus instanceId u =>
    { db with
      quizInstances := db.quizInstances.modify instanceId (·.update u)
        (QuizInstanceRow.update_instanceId u) }
  | .insertPlayer player =>
    { db with
      quizInstancePlayers := (db.quizInstancePlayers.insert? player).getD db.quizInstancePlayers }

/-! ## Errors and events -/

def instanceNotFoundMessage := "Quiz instance not found"
def instanceNotHostMessage := "Only the host can perform this action"
def instanceNotOpenMessage := "Instance is not open for joining"
def instanceFullMessage := "Instance is full"
def instanceAlreadyStartedMessage := "Instance has already started"
def instanceAlreadyClosedMessage := "Instance is already closed"
def instanceAlreadyFinishedMessage := "Instance is finished"
def playerAlreadyJoinedMessage := "You have already joined this instance"
def instanceOptimisticLockMessage :=
  "Instance was modified concurrently — please retry the operation"
def minPlayersNotMetMessage :=
  "Instance requires at least 2 players before the host can start the countdown"
def instanceNotInCountdownMessage := "Instance is not in the countdown state"
def instanceCountdownAlreadyStartedMessage := "Countdown has already started for this instance"

inductive InstanceError
  | notFound (message : String)
  | notHost (message : String)
  | notOpen (message : String)
  | full (message : String)
  | alreadyStarted (message : String)
  | alreadyClosed (message : String)
  | alreadyFinished (message : String)
  | playerAlreadyJoined (message : String)
  | optimisticLock (message : String)
  | minPlayersNotMet (message : String)
  | notInCountdown (message : String)
  | countdownAlreadyStarted (message : String)
  | database
  deriving DecidableEq

inductive CancelReason
  | hostCancelled
  | hostDisconnected
  | instanceClosed
  deriving DecidableEq

inductive DomainEvent
  | instanceCreated (instanceId quizVersionId hostUserId : Uuid) (maxPlayers : Option Int)
      (nowIso : Int)
  | instanceStarted (instanceId hostUserId : Uuid) (nowIso : Int)
  | instanceClosed (instanceId hostUserId : Uuid) (nowIso : Int)
  | countdownStarted (instanceId hostUserId : Uuid) (countdownStartedAt countdownEndsAt nowIso : Int)
  | countdownCancelled (instanceId hostUserId : Uuid) (reason : CancelReason) (nowIso : Int)
  | countdownCompleted (instanceId : Uuid) (startedAt nowIso : Int)

/-! ## The writers of a status -/

def countdownDurationMs : Int := 5000

def minPlayersPerInstance : Nat := 2

def tickBatchSize : Nat := 50

inductive Writer
  | startCountdown (userId : Uuid)
  | cancelCountdown (userId : Uuid) (reason : CancelReason)
  | startInstance (userId : Uuid)
  | closeInstance (userId : Uuid) (fromCountdown : Bool)
  | cancelByScheduler (hostUserId : Uuid)
  | completeByScheduler (hostUserId : Uuid)
  deriving DecidableEq

namespace Writer

def params (nowIso expectedVersion : Int) : Writer → StatusUpdate
  | startCountdown _ =>
    { status := .countdown, nowIso, countdownStartedAt := some (some nowIso), expectedVersion }
  | cancelCountdown .. | cancelByScheduler _ =>
    { status := .opened, nowIso, countdownStartedAt := some none, expectedVersion }
  | startInstance _ | completeByScheduler _ =>
    { status := .running, nowIso, startedAt := some nowIso, countdownStartedAt := some none
      expectedVersion }
  | closeInstance .. =>
    { status := .closed, nowIso, closedAt := some nowIso, countdownStartedAt := some none
      expectedVersion }

def events (instanceId : Uuid) (nowIso : Int) : Writer → List DomainEvent
  | startCountdown userId =>
    [.countdownStarted instanceId userId nowIso (nowIso + countdownDurationMs) nowIso]
  | cancelCountdown userId reason => [.countdownCancelled instanceId userId reason nowIso]
  | startInstance userId => [.instanceStarted instanceId userId nowIso]
  | closeInstance userId fromCountdown =>
    .instanceClosed instanceId userId nowIso ::
      if fromCountdown then [.countdownCancelled instanceId userId .instanceClosed nowIso] else []
  | cancelByScheduler hostUserId =>
    [.countdownCancelled instanceId hostUserId .hostDisconnected nowIso]
  | completeByScheduler hostUserId =>
    [.countdownCompleted instanceId nowIso nowIso, .instanceStarted instanceId hostUserId nowIso]

/-- What it throws after an `InstanceOptimisticLockError`, having read the instance again. -/
def lockError (latest : Option InstanceStatus) : Writer → InstanceError
  | startCountdown _ =>
    match latest with
    | some .countdown => .countdownAlreadyStarted instanceCountdownAlreadyStartedMessage
    | some .running => .alreadyStarted instanceAlreadyStartedMessage
    | some .closed | some .finished => .alreadyClosed instanceAlreadyClosedMessage
    | _ => .optimisticLock instanceOptimisticLockMessage
  | cancelCountdown .. =>
    match latest with
    | none | some .countdown => .optimisticLock instanceOptimisticLockMessage
    | _ => .notInCountdown instanceNotInCountdownMessage
  | startInstance _ =>
    match latest with
    | some .running => .alreadyStarted instanceAlreadyStartedMessage
    | some .closed | some .finished => .alreadyClosed instanceAlreadyClosedMessage
    | _ => .optimisticLock instanceOptimisticLockMessage
  | closeInstance .. =>
    match latest with
    | some .closed => .alreadyClosed instanceAlreadyClosedMessage
    | some .finished => .alreadyFinished instanceAlreadyFinishedMessage
    | _ => .optimisticLock instanceOptimisticLockMessage
  | cancelByScheduler _ | completeByScheduler _ => .optimisticLock instanceOptimisticLockMessage

def isScheduler : Writer → Bool
  | cancelByScheduler _ | completeByScheduler _ => true
  | _ => false

end Writer

/-! ## Requests -/

inductive SkipReason
  | minPlayersNotMet
  | stateChanged
  | lostLock
  deriving DecidableEq

inductive Request
  | createInstance (quizVersionId userId : Uuid) (maxPlayers : Option Int) (nowIso : Int)
  | joinInstance (instanceId userId : Uuid) (nowIso : Int)
  | joinInstanceAtomic (instanceId userId : Uuid) (maxPlayers : Option Int) (nowIso : Int)
  | startCountdown (instanceId userId : Uuid) (nowIso : Int)
  | cancelCountdown (instanceId userId : Uuid) (reason : CancelReason) (nowIso : Int)
  | startInstance (instanceId userId : Uuid) (nowIso : Int)
  | startInstanceCount (instanceId userId : Uuid) (nowIso version : Int)
  | closeInstance (instanceId userId : Uuid) (nowIso : Int)
  | findDueCountdowns (cutoffIso : Int)
  | completeCountdown (instanceId : Uuid) (expectedVersion : Int)
  | completeCountdownCount (instanceId hostUserId : Uuid) (nowIso expectedVersion : Int)
  | updateInstanceStatus (w : Writer) (instanceId : Uuid) (nowIso expectedVersion : Int)
  | latest (w : Writer) (instanceId : Uuid)
  | done
  | skipped (reason : SkipReason)
  | failed (error : InstanceError)
  deriving DecidableEq

def Request.isOver : Request → Bool
  | done | skipped _ | failed _ => true
  | _ => false

inductive Incoming
  | createInstance (quizVersionId userId : Uuid) (maxPlayers : Option Int)
  | joinInstance (instanceId userId : Uuid)
  | startCountdown (instanceId userId : Uuid)
  | cancelCountdown (instanceId userId : Uuid) (reason : CancelReason)
  | startInstance (instanceId userId : Uuid)
  | closeInstance (instanceId userId : Uuid)
  | handleDueCountdowns

def Incoming.request (nowIso : Int) : Incoming → Request
  | createInstance quizVersionId userId maxPlayers =>
    .createInstance quizVersionId userId maxPlayers nowIso
  | joinInstance instanceId userId => .joinInstance instanceId userId nowIso
  | startCountdown instanceId userId => .startCountdown instanceId userId nowIso
  | cancelCountdown instanceId userId reason => .cancelCountdown instanceId userId reason nowIso
  | startInstance instanceId userId => .startInstance instanceId userId nowIso
  | closeInstance instanceId userId => .closeInstance instanceId userId nowIso
  | handleDueCountdowns => .findDueCountdowns (nowIso - countdownDurationMs)

/-! ## The statements that only read -/

namespace Db

variable (db : Db)

section

variable (instanceId userId : Uuid)

def joinInstance (nowIso : Int) : Request :=
  match db.quizInstances.find? instanceId with
  | none => .failed (.notFound instanceNotFoundMessage)
  | some row =>
    if row.status ≠ .opened then .failed (.notOpen instanceNotOpenMessage)
    else .joinInstanceAtomic instanceId userId row.maxPlayers nowIso

def hostedInstance : Except InstanceError QuizInstanceRow :=
  match db.quizInstances.find? instanceId with
  | none => .error (.notFound instanceNotFoundMessage)
  | some row =>
    if row.hostUserId ≠ userId then .error (.notHost instanceNotHostMessage) else .ok row

def startCountdown (nowIso : Int) : Request :=
  match db.hostedInstance instanceId userId with
  | .error e => .failed e
  | .ok row =>
    if row.status = .countdown then
      .failed (.countdownAlreadyStarted instanceCountdownAlreadyStartedMessage)
    else if row.status ≠ .opened then .failed (.notOpen instanceNotOpenMessage)
    else .updateInstanceStatus (.startCountdown userId) instanceId nowIso row.version

def cancelCountdown (reason : CancelReason) (nowIso : Int) : Request :=
  match db.hostedInstance instanceId userId with
  | .error e => .failed e
  | .ok row =>
    if row.status ≠ .countdown then .failed (.notInCountdown instanceNotInCountdownMessage)
    else .updateInstanceStatus (.cancelCountdown userId reason) instanceId nowIso row.version

def startInstance (nowIso : Int) : Request :=
  match db.hostedInstance instanceId userId with
  | .error e => .failed e
  | .ok row =>
    match row.status with
    | .opened => .failed (.notInCountdown instanceNotInCountdownMessage)
    | .running => .failed (.alreadyStarted instanceAlreadyStartedMessage)
    | .closed | .finished => .failed (.alreadyClosed instanceAlreadyClosedMessage)
    | .countdown => .startInstanceCount instanceId userId nowIso row.version

def closeInstance (nowIso : Int) : Request :=
  match db.hostedInstance instanceId userId with
  | .error e => .failed e
  | .ok row =>
    match row.status with
    | .closed => .failed (.alreadyClosed instanceAlreadyClosedMessage)
    | .finished => .failed (.alreadyFinished instanceAlreadyFinishedMessage)
    | status =>
      .updateInstanceStatus (.closeInstance userId (status = .countdown)) instanceId nowIso row.version

end

def findDueCountdowns (cutoffIso : Int) : List Request :=
  let due := db.quizInstances.rows.filter fun row =>
    row.status = .countdown ∧ row.countdownStartedAt.any (· ≤ cutoffIso)
  let sorted := due.insertionSort fun a b =>
    a.countdownStartedAt.getD 0 ≤ b.countdownStartedAt.getD 0
  (sorted.take tickBatchSize).map fun row => .completeCountdown row.instanceId row.version

/-- `completeCountdownByScheduler`, up to the count of players. -/
def completeCountdown (instanceId : Uuid) (expectedVersion nowIso : Int) : Request :=
  match db.quizInstances.find? instanceId with
  | none => .skipped .stateChanged
  | some row =>
    if row.status ≠ .countdown then .skipped .stateChanged
    else .completeCountdownCount instanceId row.hostUserId nowIso expectedVersion

end Db

/-! ## Steps -/

/-- What a step of a request does: the write it commits, the point it goes on from, the runs it starts
and the events it emits. -/
structure Progress where
  write : Write
  request : Request
  started : List Request := []
  emitted : List DomainEvent := []

def Progress.goto (r : Request) : Progress := { write := .nothing, request := r }

/-- Where a writer goes on after an `InstanceOptimisticLockError`. -/
def Writer.lost (instanceId : Uuid) (w : Writer) : Request :=
  if w.isScheduler then .skipped .lostLock else .latest w instanceId

def Writer.answer : Writer → Request
  | .cancelByScheduler _ => .skipped .minPlayersNotMet
  | _ => .done

def Db.updateInstanceStatus (db : Db) (w : Writer) (instanceId : Uuid) (nowIso expectedVersion : Int) :
    Progress :=
  match db.quizInstances.find? instanceId with
  | none => .goto (w.lost instanceId)
  | some row =>
    if row.version ≠ expectedVersion then .goto (w.lost instanceId)
    else if (row.update (w.params nowIso expectedVersion)).Valid then
      { write := .updateInstanceStatus instanceId (w.params nowIso expectedVersion)
        request := w.answer, emitted := w.events instanceId nowIso }
    else .goto (.failed .database)

def Db.joinInstanceAtomic (db : Db) (instanceId userId : Uuid) (maxPlayers : Option Int) (nowIso : Int)
    (instancePlayerId : Uuid) : Progress :=
  if (db.quizInstancePlayers.find? (instanceId, userId)).isSome then
    .goto (.failed (.playerAlreadyJoined playerAlreadyJoinedMessage))
  else if maxPlayers.any (· ≤ (db.countPlayers instanceId : Int)) then
    .goto (.failed (.full instanceFullMessage))
  else
    { write := .insertPlayer { instancePlayerId, instanceId, userId, joinedAt := nowIso }
      request := .done }

/-- The next statement of a request at an instant, with the id it draws; `none` when it is over, and
for an id that is taken. -/
def Request.next (db : Db) (clock : Int) (id : Uuid) : Request → Option Progress
  | .createInstance quizVersionId userId maxPlayers nowIso =>
    let row : QuizInstanceRow :=
      { instanceId := id, quizVersionId, hostUserId := userId, maxPlayers, createdAt := nowIso
        updatedAt := nowIso }
    if (db.quizInstances.find? id).isSome ∨ (db.quizInstancePlayers.find? (id, userId)).isSome then none
    else if row.Valid then
      some
        { write := .createInstanceWithHost row
            { instancePlayerId := id, instanceId := id, userId, joinedAt := nowIso }
          request := .done
          emitted := [.instanceCreated id quizVersionId userId maxPlayers nowIso] }
    else some (.goto (.failed .database))
  | .joinInstance instanceId userId nowIso => some (.goto (db.joinInstance instanceId userId nowIso))
  | .joinInstanceAtomic instanceId userId maxPlayers nowIso =>
    some (db.joinInstanceAtomic instanceId userId maxPlayers nowIso id)
  | .startCountdown instanceId userId nowIso =>
    some (.goto (db.startCountdown instanceId userId nowIso))
  | .cancelCountdown instanceId userId reason nowIso =>
    some (.goto (db.cancelCountdown instanceId userId reason nowIso))
  | .startInstance instanceId userId nowIso => some (.goto (db.startInstance instanceId userId nowIso))
  | .startInstanceCount instanceId userId nowIso version =>
    if db.countPlayers instanceId < minPlayersPerInstance then
      some (.goto (.failed (.minPlayersNotMet minPlayersNotMetMessage)))
    else some (.goto (.updateInstanceStatus (.startInstance userId) instanceId nowIso version))
  | .closeInstance instanceId userId nowIso => some (.goto (db.closeInstance instanceId userId nowIso))
  | .findDueCountdowns cutoffIso =>
    some { write := .nothing, request := .done, started := db.findDueCountdowns cutoffIso }
  | .completeCountdown instanceId expectedVersion =>
    some (.goto (db.completeCountdown instanceId expectedVersion clock))
  | .completeCountdownCount instanceId hostUserId nowIso expectedVersion =>
    some (.goto (.updateInstanceStatus
      (if db.countPlayers instanceId < minPlayersPerInstance then .cancelByScheduler hostUserId
        else .completeByScheduler hostUserId) instanceId nowIso expectedVersion))
  | .updateInstanceStatus w instanceId nowIso expectedVersion =>
    some (db.updateInstanceStatus w instanceId nowIso expectedVersion)
  | .latest w instanceId =>
    some (.goto (.failed (w.lockError ((db.quizInstances.find? instanceId).map (·.status)))))
  | .done | .skipped _ | .failed _ => none

/-! ## The system -/

structure State where
  db : Db
  clock : Int
  requests : List Request
  emitted : List DomainEvent

inductive Action
  | arrive (r : Incoming)
  | advance (i : Nat) (id : Uuid)
  | abort (i : Nat)
  | tick (ms : Nat)

def step (s : State) : Action → Option State
  | .arrive r => some { s with requests := s.requests ++ [r.request s.clock] }
  | .advance i id => do
    let r ← s.requests[i]?
    let next ← r.next s.db s.clock id
    return { s with
      db := s.db.apply next.write
      requests := s.requests.set i next.request ++ next.started
      emitted := s.emitted ++ next.emitted }
  | .abort i => do
    let r ← s.requests[i]?
    if r.isOver then none else some { s with requests := s.requests.set i (.failed .database) }
  | .tick ms => some { s with clock := s.clock + ms }

def State.initial (clock : Int) : State := ⟨.empty, clock, [], []⟩

end QuizBackend.Instance
