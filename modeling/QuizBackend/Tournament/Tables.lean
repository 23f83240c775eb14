import Mathlib.Algebra.Order.Ring.Int
import QuizBackend.Attempt.Requests
import QuizBackend.Lib.RowNumber
import QuizBackend.Tournament.Events

/-!
# The tables of the tournament module

The rows of `tournaments`, `tournament_rounds` and `tournament_participants`, the queries of the
repositories, and their writes: one definition for each committed change of the database, under
the name of the repository method that makes it. `tournament_round_participants`, `users` and
`outbox_events` are shared with the attempt module and are part of its `Db`.

The columns `total_score` and `total_time_ms` of a participant are a projection of the rows the
participant has in the rounds. `roundTotals` is the sum they should hold; three statements of the
source compute it, each over the rows it can see.

Instants are milliseconds. Categories, and which accounts are deleted, do not change here and are
parameters, the `Catalog`. `tournament_stats` is left out: nothing here reads it.
-/

namespace QuizBackend.Tournament

open Lib Outbox
open Attempt (RoundParticipantRow RoundParams UserRole JwtPayload)

/-! ## Rows -/

inductive TournamentStatus where
  | upcoming | registration | ongoing | finished | cancelled
  deriving DecidableEq

inductive RoundStatus where
  | pending | open_ | running | finished
  deriving DecidableEq

inductive ParticipantStatus where
  | active | withdrawn | completed
  deriving DecidableEq

inductive Difficulty where
  | easy | medium | hard
  deriving DecidableEq

structure TournamentRow where
  tournamentId : Uuid
  title : String
  description : Option String
  difficulty : Difficulty
  status : TournamentStatus
  prize : Option String
  startAt : Int
  endAt : Int
  maxParticipants : Option Int
  categoryId : Option Uuid
  ownerUserId : Uuid
  createdAt : Int
  updatedAt : Int
  deletedAt : Option Int
  deriving DecidableEq

structure RoundRow where
  roundId : Uuid
  tournamentId : Uuid
  roundNumber : Int
  name : String
  description : Option String
  quizVersionId : Uuid
  startAt : Option Int
  endAt : Option Int
  durationMs : Option Int
  status : RoundStatus
  isElimination : Bool
  participantLimit : Option Int
  createdAt : Int
  updatedAt : Int
  deriving DecidableEq

structure ParticipantRow where
  participantId : Uuid
  tournamentId : Uuid
  userId : Uuid
  registeredAt : Int
  totalScore : Int
  totalTimeMs : Int
  rankFinal : Option Nat
  status : ParticipantStatus
  withdrawnAt : Option Int
  updatedAt : Int
  deriving DecidableEq

abbrev Tournaments := Table Uuid TournamentRow TournamentRow.tournamentId
abbrev Rounds := Table Uuid RoundRow RoundRow.roundId
abbrev Participants := Table Uuid ParticipantRow ParticipantRow.participantId
abbrev RoundParticipants := Table (Uuid × Uuid) RoundParticipantRow RoundParticipantRow.key

structure Db where
  attempt : Attempt.Db
  tournaments : Tournaments
  rounds : Rounds
  participants : Participants

structure Catalog where
  attempt : Attempt.Catalog
  categoryName : Uuid → Option String
  userDeleted : Uuid → Bool

/-- What is drawn for a statement: the ids of the rows it inserts, its `NOW()`, and
`getCorrelationId()`. -/
structure Drawn where
  id : Uuid
  eventIds : List String
  correlationId : Option String
  now : Int

/-! ## Queries -/

/-- `getTournamentById`: a tournament that is not deleted. -/
def Db.getTournamentById (db : Db) (tournamentId : Uuid) : Option TournamentRow :=
  (db.tournaments.find? tournamentId).filter (·.deletedAt.isNone)

def Db.getParticipantByUserAndTournament (db : Db) (userId tournamentId : Uuid) :
    Option ParticipantRow :=
  db.participants.rows.find? fun p => p.tournamentId = tournamentId ∧ p.userId = userId

def ParticipantRow.isActiveIn (tournamentId : Uuid) (p : ParticipantRow) : Bool :=
  p.tournamentId = tournamentId ∧ p.status = .active

def Db.countParticipants (db : Db) (tournamentId : Uuid) : Nat :=
  db.participants.rows.countP (·.isActiveIn tournamentId)

def Db.listParticipants (db : Db) (cat : Catalog) (tournamentId : Uuid) (limit : Nat) :
    List ParticipantRow :=
  ((db.participants.rows.filter fun p =>
      p.isActiveIn tournamentId && !cat.userDeleted p.userId).insertionSort fun p q =>
    q.registeredAt < p.registeredAt ∨
      (p.registeredAt = q.registeredAt ∧
        q.participantId.bits.toNat ≤ p.participantId.bits.toNat)).take limit

def Db.selectTournaments (db : Db) (p : TournamentRow → Bool) : List TournamentRow :=
  (db.tournaments.rows.filter fun t => t.deletedAt.isNone && p t).insertionSort fun t u =>
    t.startAt < u.startAt ∨
      (t.startAt = u.startAt ∧ t.tournamentId.bits.toNat ≤ u.tournamentId.bits.toNat)

def Db.listTournamentsStartingSoon (db : Db) (windowStart windowEnd : Int) : List TournamentRow :=
  db.selectTournaments fun t =>
    t.status = .upcoming ∧ windowStart ≤ t.startAt ∧ t.startAt ≤ windowEnd

def Db.listTournamentsStartingPlay (db : Db) (nowIso : Int) : List TournamentRow :=
  db.selectTournaments fun t => t.status = .registration ∧ t.startAt ≤ nowIso

def pageSize : Nat := 100

def pageOf {α : Type} (rows : List α) (page : Nat) : List α :=
  (rows.drop ((page - 1) * pageSize)).take pageSize

/-- `listCompletedTournaments`, latest end first. It selects `'finished'` ones. -/
def Db.listCompletedTournaments (db : Db) (nowIso : Int) (page : Nat) : List TournamentRow :=
  pageOf ((db.tournaments.rows.filter fun t =>
      t.deletedAt.isNone ∧ t.status = .finished ∧ t.endAt < nowIso).insertionSort fun t u =>
    u.endAt < t.endAt ∨
      (t.endAt = u.endAt ∧ u.tournamentId.bits.toNat ≤ t.tournamentId.bits.toNat)) page

def Db.listDueRoundOpens (db : Db) (nowIso : Int) (page : Nat) : List RoundRow :=
  pageOf ((db.rounds.rows.filter fun r =>
      r.status = .pending ∧ (r.startAt.any (· ≤ nowIso)) = true ∧
        ((db.getTournamentById r.tournamentId).any (·.status = .ongoing)) = true).insertionSort
    fun r q => r.startAt.getD 0 < q.startAt.getD 0 ∨
      (r.startAt.getD 0 = q.startAt.getD 0 ∧ r.roundId.bits.toNat ≤ q.roundId.bits.toNat)) page

/-- `listDueRoundCloses`. The parent tournament's status is not constrained. -/
def Db.listDueRoundCloses (db : Db) (nowIso : Int) (page : Nat) : List RoundRow :=
  pageOf ((db.rounds.rows.filter fun r =>
      r.status = .open_ ∧ (r.endAt.any (· ≤ nowIso)) = true).insertionSort
    fun r q => r.endAt.getD 0 < q.endAt.getD 0 ∨
      (r.endAt.getD 0 = q.endAt.getD 0 ∧ r.roundId.bits.toNat ≤ q.roundId.bits.toNat)) page

/-! ## Totals and standings -/

structure Totals where
  totalScore : Int
  totalTimeMs : Int
  deriving DecidableEq

def ParticipantRow.totals (p : ParticipantRow) : Totals := ⟨p.totalScore, p.totalTimeMs⟩

/-- `COALESCE(SUM(round_score), 0), COALESCE(SUM(round_time_ms), 0)` over the rows of a
participant. -/
def roundTotals (rows : List RoundParticipantRow) (participantId : Uuid) : Totals :=
  let own := rows.filter fun row => row.participantId = participantId
  ⟨(own.map (·.roundScore)).sum, (own.map (·.roundTimeMs)).sum⟩

def Totals.IsInt4 (t : Totals) : Prop := Lib.IsInt4 t.totalScore ∧ Lib.IsInt4 t.totalTimeMs

instance (t : Totals) : Decidable t.IsInt4 := inferInstanceAs (Decidable (_ ∧ _))

def Totals.Beats (a b : Totals) : Prop :=
  b.totalScore < a.totalScore ∨ (a.totalScore = b.totalScore ∧ a.totalTimeMs < b.totalTimeMs)

instance (a b : Totals) : Decidable (a.Beats b) := inferInstanceAs (Decidable (_ ∨ _))

structure Contender where
  participantId : Uuid
  userId : Uuid
  totals : Totals
  deriving DecidableEq

/-- `ORDER BY total_score DESC, total_time_ms ASC, participant_id ASC`. -/
def Contender.le (a b : Contender) : Prop :=
  a.totals.Beats b.totals ∨
    (a.totals = b.totals ∧ a.participantId.bits.toNat ≤ b.participantId.bits.toNat)

instance (a b : Contender) : Decidable (a.le b) := inferInstanceAs (Decidable (_ ∨ _))

/-- `withdrawn_at IS NULL` and the account is not deleted. -/
def Db.contenders (db : Db) (cat : Catalog) (tournamentId : Uuid) : List Contender :=
  (db.participants.rows.filter fun p =>
      p.tournamentId = tournamentId ∧ p.withdrawnAt = none ∧
        cat.userDeleted p.userId = false).map fun p =>
    { participantId := p.participantId, userId := p.userId,
      totals := roundTotals db.attempt.roundParticipants.rows p.participantId }

/-- The ranking of `finalizeTournament`, by the sums over the rounds. -/
def Db.ranked (db : Db) (cat : Catalog) (tournamentId : Uuid) : List (Contender × Nat) :=
  rowNumber Contender.le (db.contenders cat tournamentId)

/-- `getLeaderboard`, all pages: the live ranking, by the columns of the participant. -/
def Db.getLeaderboard (db : Db) (tournamentId : Uuid) : List (ParticipantRow × Nat) :=
  let rows := (db.participants.rows.filter fun p =>
      p.tournamentId = tournamentId ∧ (p.status = .active ∨ p.status = .completed)).insertionSort
    fun p q => ¬ q.totals.Beats p.totals
  rows.map fun p => (p, rank (fun a b => a.totals.Beats b.totals) rows p)

/-! ## Writes to tournaments and rounds -/

/-- `CreateTournamentDto`; its texts are trimmed. -/
structure CreateTournamentDto where
  title : String
  description : Option String
  difficulty : Difficulty
  prize : Option String
  startAt : Int
  endAt : Int
  maxParticipants : Option Int
  categoryId : Option Uuid

def CreateTournamentDto.row (dto : CreateTournamentDto) (tournamentId ownerUserId : Uuid)
    (nowIso : Int) : TournamentRow :=
  { tournamentId, title := dto.title, description := dto.description,
    difficulty := dto.difficulty, status := .upcoming, prize := dto.prize, startAt := dto.startAt,
    endAt := dto.endAt, maxParticipants := dto.maxParticipants, categoryId := dto.categoryId,
    ownerUserId, createdAt := nowIso, updatedAt := nowIso, deletedAt := none }

/-- `UpdateTournamentDto`; a field that is absent is `none`, and `some none` is `null`. -/
structure UpdateTournamentDto where
  title : Option String
  description : Option (Option String)
  difficulty : Option Difficulty
  prize : Option (Option String)
  startAt : Option Int
  endAt : Option Int
  maxParticipants : Option (Option Int)
  categoryId : Option (Option Uuid)
  deriving DecidableEq

def UpdateTournamentDto.set (dto : UpdateTournamentDto) (nowIso : Int) (t : TournamentRow) :
    TournamentRow :=
  { t with
    title := dto.title.getD t.title, description := dto.description.getD t.description,
    difficulty := dto.difficulty.getD t.difficulty, prize := dto.prize.getD t.prize,
    startAt := dto.startAt.getD t.startAt, endAt := dto.endAt.getD t.endAt,
    maxParticipants := dto.maxParticipants.getD t.maxParticipants,
    categoryId := dto.categoryId.getD t.categoryId, updatedAt := nowIso }

theorem UpdateTournamentDto.set_tournamentId (dto : UpdateTournamentDto) (nowIso : Int)
    (t : TournamentRow) : (dto.set nowIso t).tournamentId = t.tournamentId := rfl

def setDeleted (nowIso : Int) (t : TournamentRow) : TournamentRow :=
  { t with deletedAt := some nowIso, updatedAt := nowIso }

theorem setDeleted_tournamentId (nowIso : Int) (t : TournamentRow) :
    (setDeleted nowIso t).tournamentId = t.tournamentId := rfl

def setStatus (status : TournamentStatus) (nowIso : Int) (t : TournamentRow) : TournamentRow :=
  { t with status, updatedAt := nowIso }

theorem setStatus_tournamentId (status : TournamentStatus) (nowIso : Int) (t : TournamentRow) :
    (setStatus status nowIso t).tournamentId = t.tournamentId := rfl

def setRoundStatus (status : RoundStatus) (nowIso : Int) (r : RoundRow) : RoundRow :=
  { r with status, updatedAt := nowIso }

theorem setRoundStatus_roundId (status : RoundStatus) (nowIso : Int) (r : RoundRow) :
    (setRoundStatus status nowIso r).roundId = r.roundId := rfl

namespace Db

section

variable (db : Db)

def createTournament (row : TournamentRow) : Db :=
  { db with tournaments := (db.tournaments.insert? row).getD db.tournaments }

def updateTournament (tournamentId : Uuid) (dto : UpdateTournamentDto)
    (nowIso : Int) : Db :=
  { db with
    tournaments := db.tournaments.modify tournamentId (dto.set nowIso)
      (dto.set_tournamentId nowIso) }

def softDeleteTournament (tournamentId : Uuid) (nowIso : Int) : Db :=
  { db with
    tournaments := db.tournaments.modify tournamentId (setDeleted nowIso)
      (setDeleted_tournamentId nowIso) }

/-- The `UPDATE` of `cancelTournament` and `markTournamentStatus`. -/
def setTournamentStatus (tournamentId : Uuid) (status : TournamentStatus)
    (nowIso : Int) : Db :=
  { db with
    tournaments := db.tournaments.modify tournamentId (setStatus status nowIso)
      (setStatus_tournamentId status nowIso) }

def createRound (row : RoundRow) : Db :=
  { db with rounds := (db.rounds.insert? row).getD db.rounds }

def markRoundStatus (roundId : Uuid) (status : RoundStatus) (nowIso : Int) : Db :=
  { db with
    rounds := db.rounds.modify roundId (setRoundStatus status nowIso)
      (setRoundStatus_roundId status nowIso) }

end

end Db

/-! ## Writes to participants -/

def newParticipant (participantId tournamentId userId : Uuid) (nowIso : Int) : ParticipantRow :=
  { participantId, tournamentId, userId, registeredAt := nowIso, totalScore := 0, totalTimeMs := 0,
    rankFinal := none, status := .active, withdrawnAt := none, updatedAt := nowIso }

def setReactivated (nowIso : Int) (p : ParticipantRow) : ParticipantRow :=
  { p with status := .active, withdrawnAt := none, updatedAt := nowIso }

theorem setReactivated_participantId (nowIso : Int) (p : ParticipantRow) :
    (setReactivated nowIso p).participantId = p.participantId := rfl

def setWithdrawn (nowIso : Int) (p : ParticipantRow) : ParticipantRow :=
  { p with status := .withdrawn, withdrawnAt := some nowIso, updatedAt := nowIso }

theorem setWithdrawn_participantId (nowIso : Int) (p : ParticipantRow) :
    (setWithdrawn nowIso p).participantId = p.participantId := rfl

section

variable (standings : List (Contender × Nat))

def rankIn (participantId : Uuid) : Option Nat :=
  (standings.find? fun s => s.1.participantId = participantId).map (·.2)

/-- `SET rank_final = v.rank, status = 'completed', … WHERE tp.participant_id = v.participant_id`,
in batches. -/
def setFinal (nowIso : Int) (p : ParticipantRow) :
    ParticipantRow :=
  match rankIn standings p.participantId with
  | some rank => { p with rankFinal := some rank, status := .completed, updatedAt := nowIso }
  | none => p

theorem setFinal_participantId (nowIso : Int)
    (p : ParticipantRow) : (setFinal standings nowIso p).participantId = p.participantId := by
  unfold setFinal
  split <;> rfl

end

def setTotals (totals : Totals) (now : Int) (p : ParticipantRow) : ParticipantRow :=
  { p with
    totalScore := totals.totalScore, totalTimeMs := totals.totalTimeMs, updatedAt := now }

theorem setTotals_participantId (totals : Totals) (now : Int) (p : ParticipantRow) :
    (setTotals totals now p).participantId = p.participantId := rfl

/-- What `handleAttemptCompleted` knows about the round row of an attempt. Its `UPDATE` names the
row by `round_participant_id`, which determines the other two. -/
structure RoundScore where
  roundParticipantId : Uuid
  roundId : Uuid
  participantId : Uuid
  roundScore : Int
  roundTimeMs : Int
  nowIso : Int
  deriving DecidableEq

section

variable (s : RoundScore)

def RoundScore.key : Uuid × Uuid := (s.roundId, s.participantId)

def RoundScore.set (row : RoundParticipantRow) : RoundParticipantRow :=
  { row with roundScore := s.roundScore, roundTimeMs := s.roundTimeMs, updatedAt := s.nowIso }

theorem RoundScore.set_key (row : RoundParticipantRow) :
    (s.set row).key = row.key := rfl

/-- `tournament_round_participants` after the `UPDATE`, as its own transaction sees it. -/
def RoundScore.apply (rows : RoundParticipants) : RoundParticipants :=
  rows.modify s.key s.set s.set_key

end

namespace Db

section

variable (db : Db)

def schedule (events : List NewEvent) : Db :=
  { db with
    attempt := { db.attempt with
      outboxEvents := events.foldl insertEvent db.attempt.outboxEvents } }

/-- The `INSERT` of `atomicRegister`, with the event of its transaction. -/
def insertParticipant (row : ParticipantRow) (events : List NewEvent) : Db :=
  { db.schedule events with
    participants := (db.participants.insert? row).getD db.participants }

def reactivateParticipant (participantId : Uuid) (nowIso : Int) : Db :=
  { db with
    participants := db.participants.modify participantId (setReactivated nowIso)
      (setReactivated_participantId nowIso) }

/-- The `UPDATE` of `atomicWithdraw`, with the event of its transaction. -/
def withdrawParticipant (participantId : Uuid) (nowIso : Int)
    (events : List NewEvent) : Db :=
  { db.schedule events with
    participants := db.participants.modify participantId (setWithdrawn nowIso)
      (setWithdrawn_participantId nowIso) }

/-- The transaction of `finalizeSingleTournament`: the status, the ranks and the events. -/
def finalizeTournament (tournamentId : Uuid) (standings : List (Contender × Nat))
    (nowIso : Int) (events : List NewEvent) : Db :=
  { (db.setTournamentStatus tournamentId .finished nowIso).schedule events with
    participants := db.participants.update (setFinal standings nowIso)
      (setFinal_participantId standings nowIso) }

/-- The transaction of `handleAttemptCompleted`: the round row, and the totals when
`recalculateParticipantTotals` found them changed. -/
def scoreRound (score : RoundScore) (totals : Option Totals) (now : Int) : Db :=
  { db with
    attempt := { db.attempt with
      roundParticipants := score.apply db.attempt.roundParticipants }
    participants :=
      match totals with
      | some totals =>
        db.participants.modify score.participantId (setTotals totals now)
          (setTotals_participantId totals now)
      | none => db.participants }

end

end Db

/-! ## Committed changes -/

inductive Write where
  | nothing
  | createTournament (row : TournamentRow)
  | updateTournament (tournamentId : Uuid) (dto : UpdateTournamentDto) (nowIso : Int)
  | softDeleteTournament (tournamentId : Uuid) (nowIso : Int)
  | setTournamentStatus (tournamentId : Uuid) (status : TournamentStatus) (nowIso : Int)
  | createRound (row : RoundRow)
  | markRoundStatus (roundId : Uuid) (status : RoundStatus) (nowIso : Int)
  | schedule (events : List NewEvent)
  | insertParticipant (row : ParticipantRow) (events : List NewEvent)
  | reactivateParticipant (participantId : Uuid) (nowIso : Int)
  | withdrawParticipant (participantId : Uuid) (nowIso : Int) (events : List NewEvent)
  | finalizeTournament (tournamentId : Uuid) (standings : List (Contender × Nat)) (nowIso : Int)
      (events : List NewEvent)
  | scoreRound (score : RoundScore) (totals : Option Totals) (now : Int)
  deriving DecidableEq

def Db.apply (db : Db) : Write → Db
  | .nothing => db
  | .createTournament row => db.createTournament row
  | .updateTournament tournamentId dto nowIso => db.updateTournament tournamentId dto nowIso
  | .softDeleteTournament tournamentId nowIso => db.softDeleteTournament tournamentId nowIso
  | .setTournamentStatus tournamentId status nowIso =>
    db.setTournamentStatus tournamentId status nowIso
  | .createRound row => db.createRound row
  | .markRoundStatus roundId status nowIso => db.markRoundStatus roundId status nowIso
  | .schedule events => db.schedule events
  | .insertParticipant row events => db.insertParticipant row events
  | .reactivateParticipant participantId nowIso => db.reactivateParticipant participantId nowIso
  | .withdrawParticipant participantId nowIso events =>
    db.withdrawParticipant participantId nowIso events
  | .finalizeTournament tournamentId standings nowIso events =>
    db.finalizeTournament tournamentId standings nowIso events
  | .scoreRound score totals now => db.scoreRound score totals now

end QuizBackend.Tournament
