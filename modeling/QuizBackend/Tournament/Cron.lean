import QuizBackend.Tournament.Program

/-!
# The scheduled jobs

`tournament-lifecycle.service.ts`: the jobs that list what is due and move it on, one row after
the other. A job is at one of its points with the items it still has to visit. An error ends it.

`finalizeSingleTournament` is a transaction of several statements, and the only one that keeps the
row of a tournament locked while others go on: `markTournamentStatus` locks it, the ranking is
read from a snapshot taken later, and the ranks are written and committed after that. It is
reached from `finalizeDueTournaments`, and may also be run on its own, `finalizing [t] now none`.
-/

namespace QuizBackend.Tournament

open Lib Outbox

inductive Cron where
  | dispatch (windowStart windowEnd timestamp : Int)
  | dispatching (items : List TournamentRow) (windowStart timestamp : Int)
  | dispatchMark (t : TournamentRow) (participantCount : Nat) (items : List TournamentRow)
      (windowStart timestamp : Int)
  | dispatchList (t : TournamentRow) (participantCount : Nat) (items : List TournamentRow)
      (windowStart timestamp : Int)
  | dispatchSchedule (t : TournamentRow) (participants : List ParticipantRow)
      (items : List TournamentRow) (windowStart timestamp : Int)
  | start (nowIso : Int)
  | starting (items : List TournamentRow) (nowIso : Int)
  | openRounds (nowIso : Int) (page : Nat)
  | opening (items : List RoundRow) (nowIso : Int) (next : Option Nat)
  | closeRounds (nowIso : Int) (page : Nat)
  | closing (items : List RoundRow) (nowIso : Int) (next : Option Nat)
  | finalize (nowIso : Int) (page : Nat)
  | finalizing (items : List Uuid) (nowIso : Int) (next : Option Nat)
  | finalizeRank (t : TournamentRow) (items : List Uuid) (nowIso : Int) (next : Option Nat)
  | finalizeCommit (t : TournamentRow) (standings : List (Contender × Nat)) (items : List Uuid)
      (nowIso : Int) (next : Option Nat)

namespace Cron

def isNew : Cron → Bool
  | dispatch .. | start _ => true
  | openRounds _ page | closeRounds _ page | finalize _ page => page = 1
  | finalizing [_] _ none => true
  | _ => false

def locksTournament : Cron → Option Uuid
  | finalizeRank t _ _ _ => some t.tournamentId
  | finalizeCommit t _ _ _ _ => some t.tournamentId
  | _ => none

def nextPage {α : Type} (items : List α) (page : Nat) : Option Nat :=
  if items.length < pageSize then none else some (page + 1)

/-- `WHERE tournament_id = … AND status = fromStatus AND deleted_at IS NULL`. -/
def markable (db : Db) (tournamentId : Uuid) (fromStatus : TournamentStatus) :
    Option TournamentRow :=
  (db.getTournamentById tournamentId).filter fun t => t.status = fromStatus

def roundMarkable (db : Db) (roundId : Uuid) (fromStatus : RoundStatus) : Bool :=
  (db.rounds.find? roundId).any fun r => r.status = fromStatus

def startingSoonEvents (cat : Catalog) (t : TournamentRow) (timestamp : Int)
    (participants : List ParticipantRow) : List Scheduled :=
  participants.map fun p =>
    .startingSoon t.tournamentId p.userId t.title (cat.categoryTitle t) t.startAt timestamp

def finalEvents (cat : Catalog) (t : TournamentRow) (timestamp : Int)
    (standings : List (Contender × Nat)) : List Scheduled :=
  standings.flatMap fun (c, rank) =>
    .completed t.tournamentId c.userId t.title (cat.categoryTitle t) rank standings.length
        timestamp ::
      if rank = 1 then
        [.won t.tournamentId c.userId t.title (cat.categoryTitle t) rank t.prize timestamp]
      else []

/-- The casts of the sums, and `rank_final` is a `smallint`. -/
def standingsFit (standings : List (Contender × Nat)) : Bool :=
  standings.all fun (c, rank) => decide c.totals.IsInt4 && rank ≤ 32767

/-- The next statement of a job; `none` when it has to wait for a row lock, and for a draw of ids
that does not fit. -/
def step (cat : Catalog) (db : Db) (locks : Locks) (d : Drawn) : Cron → Option (Progress Cron)
  | dispatch windowStart windowEnd timestamp =>
    some (.goto (.goto (.dispatching (db.listTournamentsStartingSoon windowStart windowEnd)
      windowStart timestamp)))
  | dispatching [] _ _ => some (.goto .done)
  | dispatching (t :: items) windowStart timestamp =>
    let participantCount := db.countParticipants t.tournamentId
    if participantCount = 0 then some (.goto (.goto (.dispatching items windowStart timestamp)))
    else some (.goto (.goto (.dispatchMark t participantCount items windowStart timestamp)))
  | dispatchMark t participantCount items windowStart timestamp =>
    if locks.tournament t.tournamentId then none
    else
      match markable db t.tournamentId .upcoming with
      | none => some (.goto (.goto (.dispatching items windowStart timestamp)))
      | some _ =>
        some (.commit (.setTournamentStatus t.tournamentId .registration windowStart)
          (.goto (.dispatchList t participantCount items windowStart timestamp)))
  | dispatchList t participantCount items windowStart timestamp =>
    some (.goto (.goto (.dispatchSchedule t
      (db.listParticipants cat t.tournamentId participantCount) items windowStart timestamp)))
  | dispatchSchedule t participants items windowStart timestamp =>
    (outboxRows d timestamp d.correlationId
      (startingSoonEvents cat t timestamp participants)).map fun events =>
    .commit (.schedule events) (.goto (.dispatching items windowStart timestamp))
  | start nowIso =>
    some (.goto (.goto (.starting (db.listTournamentsStartingPlay nowIso) nowIso)))
  | starting [] _ => some (.goto .done)
  | starting (t :: items) nowIso =>
    if locks.tournament t.tournamentId then none
    else
      match markable db t.tournamentId .registration with
      | none => some (.goto (.goto (.starting items nowIso)))
      | some _ =>
        some (.commit (.setTournamentStatus t.tournamentId .ongoing nowIso)
          (.goto (.starting items nowIso)))
  | openRounds nowIso page =>
    let items := db.listDueRoundOpens nowIso page
    some (.goto (.goto (.opening items nowIso (nextPage items page))))
  | opening [] _ none => some (.goto .done)
  | opening [] nowIso (some page) => some (.goto (.goto (.openRounds nowIso page)))
  | opening (r :: items) nowIso next =>
    if roundMarkable db r.roundId .pending then
      some (.commit (.markRoundStatus r.roundId .open_ nowIso)
        (.goto (.opening items nowIso next)))
    else some (.goto (.goto (.opening items nowIso next)))
  | closeRounds nowIso page =>
    let items := db.listDueRoundCloses nowIso page
    some (.goto (.goto (.closing items nowIso (nextPage items page))))
  | closing [] _ none => some (.goto .done)
  | closing [] nowIso (some page) => some (.goto (.goto (.closeRounds nowIso page)))
  | closing (r :: items) nowIso next =>
    if roundMarkable db r.roundId .open_ then
      some (.commit (.markRoundStatus r.roundId .finished nowIso)
        (.goto (.closing items nowIso next)))
    else some (.goto (.goto (.closing items nowIso next)))
  | finalize nowIso page =>
    let items := db.listCompletedTournaments nowIso page
    some (.goto (.goto (.finalizing (items.map (·.tournamentId)) nowIso (nextPage items page))))
  | finalizing [] _ none => some (.goto .done)
  | finalizing [] nowIso (some page) => some (.goto (.goto (.finalize nowIso page)))
  | finalizing (tournamentId :: items) nowIso next =>
    if locks.tournament tournamentId then none
    else
      match markable db tournamentId .ongoing with
      | none => some (.goto (.goto (.finalizing items nowIso next)))
      | some t => some (.goto (.goto (.finalizeRank t items nowIso next)))
  | finalizeRank t items nowIso next =>
    let standings := db.ranked cat t.tournamentId
    if standingsFit standings then
      some (.goto (.goto (.finalizeCommit t standings items nowIso next)))
    else some (.goto (.failed databaseError))
  | finalizeCommit t standings items nowIso next =>
    -- the `UPDATE` of the ranks waits for every row another transaction has locked
    if standings.any fun s => locks.participant s.1.participantId then none
    else
      (outboxRows d nowIso (d.correlationId.getD "system")
        (finalEvents cat t nowIso standings)).map fun events =>
      .commit (.finalizeTournament t.tournamentId standings nowIso events)
        (.goto (.finalizing items nowIso next))

end Cron

end QuizBackend.Tournament
