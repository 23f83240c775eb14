import QuizBackend.Tournament.Program

/-!
# Organising a tournament

`createTournament`, `updateTournament`, `softDeleteTournament`, `cancelTournament` and
`createTournamentRound` of `tournament.service.ts`. Each reads the tournament and checks what it
has read; the `UPDATE` comes in a later statement, tests only that the tournament is not deleted,
and waits for a transaction that has the row locked.
-/

namespace QuizBackend.Tournament

open Lib Outbox
open Attempt (JwtPayload)

/-! ## Payloads -/

namespace UpdateTournamentDto

section

variable (dto : UpdateTournamentDto)

def isEmpty : Bool :=
  dto.title.isNone && dto.description.isNone && dto.difficulty.isNone && dto.prize.isNone &&
    dto.startAt.isNone && dto.endAt.isNone && dto.maxParticipants.isNone && dto.categoryId.isNone

def editsMoreThanPrize : Bool :=
  dto.title.isSome || dto.description.isSome || dto.difficulty.isSome || dto.startAt.isSome ||
    dto.endAt.isSome || dto.maxParticipants.isSome || dto.categoryId.isSome

def isValid : Bool :=
  match dto.maxParticipants with
  | some (some n) => 2 ≤ n ∧ n ≤ 100000
  | _ => true

/-- `payload.maxParticipants < tournament.maxParticipants`, when both are numbers. -/
def reducesCapacity (t : TournamentRow) : Bool :=
  match dto.maxParticipants, t.maxParticipants with
  | some (some n), some m => n < m
  | _, _ => false

end

end UpdateTournamentDto

def CreateTournamentDto.isValid (dto : CreateTournamentDto) : Bool :=
  dto.maxParticipants.all fun n => 2 ≤ n ∧ IsInt4 n

structure CreateTournamentRoundDto where
  name : String
  description : Option String
  quizVersionId : Uuid
  startAt : Option Int
  endAt : Option Int
  durationMs : Option Int
  isElimination : Option Bool
  participantLimit : Option Int

def CreateTournamentRoundDto.row (dto : CreateTournamentRoundDto) (roundId tournamentId : Uuid)
    (roundNumber : Int) (nowIso : Int) : RoundRow :=
  { roundId, tournamentId, roundNumber, name := dto.name, description := dto.description,
    quizVersionId := dto.quizVersionId, startAt := dto.startAt, endAt := dto.endAt,
    durationMs := dto.durationMs, status := .pending,
    isElimination := dto.isElimination.getD false, participantLimit := dto.participantLimit,
    createdAt := nowIso, updatedAt := nowIso }

def TournamentRow.passesChecks (t : TournamentRow) : Bool :=
  t.startAt < t.endAt && t.maxParticipants.all (0 < ·)

/-! ## Program points -/

inductive Manage where
  | create (user : JwtPayload) (dto : CreateTournamentDto) (nowIso : Int)
  | createInsert (user : JwtPayload) (dto : CreateTournamentDto) (nowIso : Int)
  | update (tournamentId : Uuid) (user : JwtPayload) (dto : UpdateTournamentDto) (nowIso : Int)
  | updateWrite (tournamentId : Uuid) (dto : UpdateTournamentDto) (nowIso : Int)
  | softDelete (tournamentId : Uuid) (user : JwtPayload) (nowIso : Int)
  | softDeleteWrite (tournamentId : Uuid) (nowIso : Int)
  | cancel (tournamentId : Uuid) (user : JwtPayload) (nowIso : Int)
  | cancelRead (tournamentId : Uuid) (nowIso : Int)
  | cancelWrite (tournamentId : Uuid) (nowIso : Int)
  | createRound (tournamentId : Uuid) (dto : CreateTournamentRoundDto) (nowIso : Int)
  | createRoundTx (tournamentId : Uuid) (dto : CreateTournamentRoundDto) (nowIso : Int)

namespace Manage

def isNew : Manage → Bool
  | create _ dto _ => dto.isValid
  | update _ _ dto _ => dto.isValid
  | softDelete .. | cancel .. | createRound .. => true
  | _ => false

def cannotCancel : TournamentError :=
  ⟨.terminalState, "Tournament cannot be cancelled in its current state"⟩

section Reads

variable (cat : Catalog) (db : Db)

def createTournament (user : JwtPayload) (dto : CreateTournamentDto) (nowIso : Int) :
    Next Manage :=
  if dto.endAt ≤ dto.startAt then .failed endBeforeStart
  else if !cat.categoryExists dto.categoryId then .failed categoryNotFound
  else .goto (.createInsert user dto nowIso)

section

variable (tournamentId : Uuid)

def updateTournament (user : JwtPayload) (dto : UpdateTournamentDto)
    (nowIso : Int) : Next Manage :=
  if dto.isEmpty then .failed emptyUpdate
  else
    match db.getTournamentById tournamentId with
    | none => .failed tournamentNotFound
    | some t =>
      if !canEdit user t then .failed tournamentForbidden
      else if t.status ≠ .upcoming ∧ t.status ≠ .registration ∧ t.status ≠ .ongoing then
        .failed ⟨.terminalState, "Cannot update a tournament in a terminal status"⟩
      else if (dto.startAt.isSome || dto.endAt.isSome) ∧
          dto.endAt.getD t.endAt ≤ dto.startAt.getD t.startAt then
        .failed endBeforeStart
      else if t.status = .ongoing ∧ dto.editsMoreThanPrize then
        .failed ⟨.terminalState,
          "Only the prize field is editable while a tournament is ongoing"⟩
      else if dto.reducesCapacity t then
        .failed ⟨.capacityReduction,
          "maxParticipants cannot be reduced after registration has started"⟩
      else if !cat.categoryExists (dto.categoryId.getD none) then .failed categoryNotFound
      else .goto (.updateWrite tournamentId dto nowIso)

def softDeleteTournament (user : JwtPayload) (nowIso : Int) : Next Manage :=
  match db.getTournamentById tournamentId with
  | none => .failed tournamentNotFound
  | some t =>
    if !canEdit user t then .failed tournamentForbidden
    else if t.status ≠ .upcoming ∧ t.status ≠ .registration then
      .failed ⟨.terminalState,
        "Cannot soft-delete a tournament outside of upcoming or registration status"⟩
    else .goto (.softDeleteWrite tournamentId nowIso)

/-- `cancelTournament` of the service, up to the repository. -/
def cancelTournament (user : JwtPayload) (nowIso : Int) : Next Manage :=
  match db.getTournamentById tournamentId with
  | none => .failed tournamentNotFound
  | some t =>
    if !canCancel user t then .failed tournamentForbidden
    else .goto (.cancelRead tournamentId nowIso)

/-- The `SELECT` of the repository's `cancelTournament`. -/
def cancelTournamentRead (nowIso : Int) : Next Manage :=
  match db.getTournamentById tournamentId with
  | none => .failed cannotCancel
  | some t =>
    if t.status = .cancelled then .done
    else if t.status = .finished then .failed cannotCancel
    else .goto (.cancelWrite tournamentId nowIso)

def createTournamentRound (dto : CreateTournamentRoundDto)
    (nowIso : Int) : Next Manage :=
  match db.getTournamentById tournamentId with
  | none => .failed tournamentNotFound
  | some t =>
    if t.status = .ongoing ∨ t.status = .finished ∨ t.status = .cancelled then
      .failed ⟨.validation,
        "Cannot add rounds to a tournament that is ongoing, finished, or cancelled"⟩
    else if dto.startAt.any (· < t.startAt) then
      .failed ⟨.validation, "Round startAt must be >= tournament startAt"⟩
    else if dto.endAt.any (t.endAt < ·) then
      .failed ⟨.validation, "Round endAt must be <= tournament endAt"⟩
    else .goto (.createRoundTx tournamentId dto nowIso)

def nextRoundNumber : Int :=
  (((db.rounds.rows.filter fun r => r.tournamentId = tournamentId).map (·.roundNumber)).max?.getD
    0) + 1

end

def roundPassesChecks (row : RoundRow) : Bool :=
  (cat.attempt.version row.quizVersionId).isSome && row.roundNumber ≤ 32767 &&
    (match row.startAt, row.endAt with
     | some s, some e => s < e
     | _, _ => true)

end Reads

/-- The next statement of a request; `none` when it has to wait for a row lock, and for a draw of
an id that is taken. -/
def step (cat : Catalog) (db : Db) (locks : Locks) (d : Drawn) : Manage → Option (Progress Manage)
  | create user dto nowIso => some (.goto (createTournament cat user dto nowIso))
  | createInsert user dto nowIso =>
    let row := dto.row d.id user.sub nowIso
    if (db.tournaments.find? d.id).isSome then none
    else if !row.passesChecks || (db.attempt.users.find? user.sub).isNone then
      some (.goto (.failed databaseError))
    else some (.commit (.createTournament row) .done)
  | update tournamentId user dto nowIso =>
    some (.goto (updateTournament cat db tournamentId user dto nowIso))
  | updateWrite tournamentId dto nowIso =>
    if locks.tournament tournamentId then none
    else
      match db.getTournamentById tournamentId with
      | none => some (.goto (.failed tournamentNotFound))
      | some t =>
        if !(dto.set nowIso t).passesChecks then some (.goto (.failed databaseError))
        else some (.commit (.updateTournament tournamentId dto nowIso) .done)
  | softDelete tournamentId user nowIso =>
    some (.goto (softDeleteTournament db tournamentId user nowIso))
  | softDeleteWrite tournamentId nowIso =>
    if locks.tournament tournamentId then none
    else
      match db.getTournamentById tournamentId with
      | none => some (.goto (.failed tournamentNotFound))
      | some _ => some (.commit (.softDeleteTournament tournamentId nowIso) .done)
  | cancel tournamentId user nowIso =>
    some (.goto (cancelTournament db tournamentId user nowIso))
  | cancelRead tournamentId nowIso => some (.goto (cancelTournamentRead db tournamentId nowIso))
  | cancelWrite tournamentId nowIso =>
    if locks.tournament tournamentId then none
    else
      match db.getTournamentById tournamentId with
      | none => some (.goto (.failed cannotCancel))
      | some _ => some (.commit (.setTournamentStatus tournamentId .cancelled nowIso) .done)
  | createRound tournamentId dto nowIso =>
    some (.goto (createTournamentRound db tournamentId dto nowIso))
  | createRoundTx tournamentId dto nowIso =>
    if locks.tournament tournamentId then none
    else
      match db.getTournamentById tournamentId with
      | none => some (.goto (.failed ⟨.database, "Tournament not found"⟩))
      | some _ =>
        let row := dto.row d.id tournamentId (nextRoundNumber db tournamentId) nowIso
        if (db.rounds.find? d.id).isSome then none
        else if !roundPassesChecks cat row then some (.goto (.failed databaseError))
        else some (.commit (.createRound row) .done)

end Manage

end QuizBackend.Tournament
