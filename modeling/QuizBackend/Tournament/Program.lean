import QuizBackend.Tournament.Tables

/-!
# Requests as programs over the database

A request of the tournament module is a sequence of database statements. The next modules give
its program points and what happens at each: the requests of organisers (`Manage`), of players who
come and go (`Enrol`), the scheduled jobs (`Cron`) and the playing of a round (`Play`). This one
has what they share: the errors with their texts, the permissions, what a statement may find
locked, and what a step of a program is.

A transaction is one step where it locks a row first and everything it then reads or writes is
only changed under that lock; otherwise each of its statements is a step, and its writes become
visible with the last one.
-/

namespace QuizBackend.Tournament

open Lib Outbox
open Attempt (RoundParams UserRole JwtPayload)

/-! ## Errors (`tournament-domain.errors.ts`, `tournament.constants.ts`) -/

inductive ErrorKind where
  | notFound | roundNotFound | notRegistered | forbidden | alreadyRegistered | participantState
  | alreadyWithdrawn | validation | registrationClosed | full | roundNotOpen | unregisterClosed
  | withdrawClosed | terminalState | capacityReduction | emptyUpdate | categoryNotFound
  | database

structure TournamentError where
  kind : ErrorKind
  message : String

def tournamentNotFound : TournamentError := ⟨.notFound, "Tournament not found"⟩
def tournamentForbidden : TournamentError :=
  ⟨.forbidden, "You do not have permission to manage this tournament"⟩
def registrationClosed : TournamentError :=
  ⟨.registrationClosed, "Tournament registration is closed"⟩
def tournamentFull : TournamentError := ⟨.full, "Tournament is full"⟩
def alreadyRegistered : TournamentError :=
  ⟨.alreadyRegistered, "You are already registered for this tournament"⟩
def roundNotFound : TournamentError := ⟨.roundNotFound, "Tournament round not found"⟩
def roundNotOpen : TournamentError := ⟨.roundNotOpen, "Tournament round is not open"⟩
def notRegistered : TournamentError :=
  ⟨.notRegistered, "You are not registered for this tournament"⟩
def unregisterClosed : TournamentError :=
  ⟨.unregisterClosed, "Tournament unregistration is only allowed during the registration phase"⟩
def alreadyWithdrawn : TournamentError :=
  ⟨.alreadyWithdrawn, "You have already withdrawn from this tournament"⟩
def withdrawClosed : TournamentError :=
  ⟨.withdrawClosed, "Tournament withdrawal is only allowed while the tournament is active"⟩
def emptyUpdate : TournamentError :=
  ⟨.emptyUpdate, "At least one field must be provided to update a tournament"⟩
def categoryNotFound : TournamentError := ⟨.categoryNotFound, "Category not found"⟩
def endBeforeStart : TournamentError := ⟨.validation, "endAt must be after startAt"⟩
def databaseError : TournamentError := ⟨.database, ""⟩

/-! ## Permissions (`tournament-authorization.policy.ts`) -/

section

variable (user : JwtPayload)

/-- `Permission.TOURNAMENT_EDIT_ANY` and `TOURNAMENT_CANCEL`. -/
def managesAny : Bool := user.role = .admin

def managesOwn : Bool := user.role = .admin ∨ user.role = .user

def canEdit (t : TournamentRow) : Bool :=
  t.deletedAt.isNone && t.status ≠ .finished && t.status ≠ .cancelled &&
    (managesAny user || (t.ownerUserId = user.sub && managesOwn user))

def canCancel (t : TournamentRow) : Bool :=
  t.deletedAt.isNone && t.status ≠ .finished && t.status ≠ .cancelled && t.status ≠ .ongoing &&
    managesAny user

end

/-! ## Steps -/

structure Locks where
  tournament : Uuid → Bool
  participant : Uuid → Bool
  roundParticipant : Uuid × Uuid → Bool

inductive Next (ρ : Type) where
  | goto (point : ρ)
  | done
  | failed (e : TournamentError)

/-- What one statement of a request does: the write it commits, where the request goes on, and
the round attempt it hands to the attempt module. -/
structure Progress (ρ : Type) where
  write : Write
  next : Next ρ
  starts : Option RoundParams

namespace Progress

variable {ρ : Type}

def goto (n : Next ρ) : Progress ρ := ⟨.nothing, n, none⟩

def commit (w : Write) (n : Next ρ) : Progress ρ := ⟨w, n, none⟩

end Progress

/-- The rows `scheduleTournamentEvent` inserts, one for each event; `none` for a draw with another
number of ids. -/
def outboxRows (d : Drawn) (nowIso : Int) (correlationId : Option String) (es : List Scheduled) :
    Option (List NewEvent) :=
  if d.eventIds.length = es.length then
    some (es.zipWith (fun e eventId => e.event eventId nowIso d.now correlationId) d.eventIds)
  else none

def Catalog.categoryTitle (cat : Catalog) (t : TournamentRow) : Option String :=
  t.categoryId.bind cat.categoryName

def Catalog.categoryExists (cat : Catalog) (categoryId : Option Uuid) : Bool :=
  categoryId.all fun id => (cat.categoryName id).isSome

end QuizBackend.Tournament
