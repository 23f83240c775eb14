import QuizBackend.Lib.Calendar
import QuizBackend.Tournament.Program

/-!
# Registering and withdrawing

`registerForTournament`, `unregisterFromTournament` and `withdrawFromTournament` of
`tournament.service.ts`. Each reads the tournament, checks its status, and then runs a transaction
that locks the row of the tournament first. The transaction reads the row again, for its capacity;
its status it does not look at.
-/

namespace QuizBackend.Tournament

open Lib Outbox
open Attempt (JwtPayload)

inductive Enrol where
  | register (tournamentId : Uuid) (user : JwtPayload) (nowIso : Int)
  | registerTx (tournament : TournamentRow) (userId : Uuid) (nowIso : Int)
  | unregister (tournamentId : Uuid) (user : JwtPayload) (nowIso : Int)
  | unregisterTx (tournament : TournamentRow) (userId : Uuid) (nowIso : Int)
  | withdraw (tournamentId userId : Uuid) (nowIso : Int)
  | withdrawTx (tournament : TournamentRow) (userId : Uuid) (nowIso : Int)

namespace Enrol

def isNew : Enrol → Bool
  | register .. | unregister .. | withdraw .. => true
  | _ => false

section Reads

variable (db : Db)

/-- `startAt` comes as PostgreSQL's text of it, and `nowIso` has a `T` where that has a space: as
strings they compare by their days, and on the day of the start it is past, whatever the time. -/
def registerForTournament (tournamentId : Uuid) (user : JwtPayload) (nowIso : Int) : Next Enrol :=
  match db.getTournamentById tournamentId with
  | none => .failed tournamentNotFound
  | some tournament =>
    if tournament.status ≠ .registration then .failed registrationClosed
    else if timestamptzText tournament.startAt ≤ toISOString nowIso then
      .failed registrationClosed
    else .goto (.registerTx tournament user.sub nowIso)

def unregisterFromTournament (tournamentId : Uuid) (user : JwtPayload) (nowIso : Int) :
    Next Enrol :=
  match db.getTournamentById tournamentId with
  | none => .failed tournamentNotFound
  | some tournament =>
    if tournament.status ≠ .registration then .failed unregisterClosed
    else .goto (.unregisterTx tournament user.sub nowIso)

def withdrawFromTournament (tournamentId userId : Uuid) (nowIso : Int) : Next Enrol :=
  match db.getTournamentById tournamentId with
  | none => .failed tournamentNotFound
  | some tournament =>
    if tournament.status ≠ .ongoing then .failed withdrawClosed
    else .goto (.withdrawTx tournament userId nowIso)

/-- `activeCount >= tournament.maxParticipants`, for the row `atomicRegister` has locked. -/
def isFull (locked : TournamentRow) : Bool :=
  locked.maxParticipants.any fun max =>
    decide (max ≤ (db.countParticipants locked.tournamentId : Int))

/-- The row that `atomicWithdraw` updates: `status = 'active'`, in a tournament not deleted. -/
def withdrawable (tournamentId userId : Uuid) : Option ParticipantRow :=
  (db.getTournamentById tournamentId).bind fun _ =>
    db.participants.rows.find? fun p =>
      p.tournamentId = tournamentId ∧ p.userId = userId ∧ p.status = .active

def whyNotWithdrawn (tournamentId userId : Uuid) : TournamentError :=
  match db.getParticipantByUserAndTournament userId tournamentId with
  | none => tournamentForbidden
  | some existing =>
    match existing.status with
    | .withdrawn => alreadyWithdrawn
    | .completed => withdrawClosed
    | .active => tournamentForbidden

end Reads

/-- The transaction of `registerForTournament`: `atomicRegister`, and the event of a new
participant. -/
def registerStep (cat : Catalog) (db : Db) (d : Drawn) (tournament : TournamentRow) (userId : Uuid)
    (nowIso : Int) : Option (Progress Enrol) :=
  match db.getTournamentById tournament.tournamentId with
  | none => some (.goto (.failed ⟨.database, "Tournament not found"⟩))
  | some locked =>
    if isFull db locked then some (.goto (.failed tournamentFull))
    else
      match db.getParticipantByUserAndTournament userId tournament.tournamentId with
      | none =>
        if (db.participants.find? d.id).isSome then none
        else if (db.attempt.users.find? userId).isNone then
          some (.goto (.failed databaseError))
        else
          (outboxRows d nowIso d.correlationId [.joined tournament.tournamentId userId
            tournament.title (cat.categoryTitle tournament) nowIso]).map fun events =>
          .commit (.insertParticipant
            (newParticipant d.id tournament.tournamentId userId nowIso) events) .done
      | some existing =>
        match existing.status with
        | .completed =>
          some (.goto (.failed ⟨.participantState,
            "Cannot re-register: participant state is completed"⟩))
        | .withdrawn =>
          some (.commit (.reactivateParticipant existing.participantId nowIso) .done)
        | .active => some (.goto (.failed alreadyRegistered))

/-- The transaction of the two ways out: `atomicWithdraw` and the event; `e` when nobody is
withdrawn. -/
def withdrawStep (db : Db) (d : Drawn) (tournamentId userId : Uuid) (nowIso : Int)
    (e : TournamentError) : Option (Progress Enrol) :=
  match withdrawable db tournamentId userId with
  | none => some (.goto (.failed e))
  | some p =>
    (outboxRows d nowIso d.correlationId [.withdrawn tournamentId userId nowIso]).map fun events =>
      .commit (.withdrawParticipant p.participantId nowIso events) .done

/-- The next statement of a request; `none` when it has to wait for the row lock of the
tournament, and for a draw of ids that does not fit. -/
def step (cat : Catalog) (db : Db) (locks : Locks) (d : Drawn) : Enrol → Option (Progress Enrol)
  | register tournamentId user nowIso =>
    some (.goto (registerForTournament db tournamentId user nowIso))
  | registerTx tournament userId nowIso =>
    if locks.tournament tournament.tournamentId then none
    else registerStep cat db d tournament userId nowIso
  | unregister tournamentId user nowIso =>
    some (.goto (unregisterFromTournament db tournamentId user nowIso))
  | unregisterTx tournament userId nowIso =>
    if locks.tournament tournament.tournamentId then none
    else withdrawStep db d tournament.tournamentId userId nowIso notRegistered
  | withdraw tournamentId userId nowIso =>
    some (.goto (withdrawFromTournament db tournamentId userId nowIso))
  | withdrawTx tournament userId nowIso =>
    if locks.tournament tournament.tournamentId then none
    else withdrawStep db d tournament.tournamentId userId nowIso
      (whyNotWithdrawn db tournament.tournamentId userId)

end Enrol

end QuizBackend.Tournament
