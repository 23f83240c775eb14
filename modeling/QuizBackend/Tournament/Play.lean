import QuizBackend.Tournament.Program

/-!
# Playing a round

`startRoundAttempt` of `tournament.service.ts` looks at the tournament, the round and the
participant in four statements and then hands over to `startRoundAttemptTx`, which is a request of
the attempt module from there on.

`handleAttemptCompleted` listens for completed attempts. Its transaction updates the row of the
round, which locks it, and then runs `recalculateParticipantTotals`: one `UPDATE` that computes the
sums over the rows its snapshot shows, this transaction's own update included, and compares them
with the participant's row. Only then does it lock that row; when it had to wait for the lock, it
compares the row again, but the sums stay those of the snapshot.
-/

namespace QuizBackend.Tournament

open Lib Outbox
open Attempt (RoundParams JwtPayload CompletionParams)

inductive Play where
  | startRound (tournamentId roundId : Uuid) (user : JwtPayload) (nowIso : Int)
  | startRoundFind (tournamentId roundId : Uuid) (user : JwtPayload) (nowIso : Int)
  | startRoundDetail (tournamentId roundId : Uuid) (user : JwtPayload) (nowIso : Int)
  | startRoundJoin (tournamentId roundId quizVersionId : Uuid) (user : JwtPayload) (nowIso : Int)
  | attemptCompleted (event : CompletionParams)
  | scoreUpdate (score : RoundScore)
  | scoreRecalculate (score : RoundScore)
  | scoreLock (score : RoundScore) (totals : Totals)
  | scoreCommit (score : RoundScore) (totals : Option Totals)

namespace Play

/-- The row of `tournament_round_participants` that is locked. -/
def locksRoundParticipant : Play → Option (Uuid × Uuid)
  | scoreRecalculate score => some score.key
  | scoreLock score _ => some score.key
  | scoreCommit score _ => some score.key
  | _ => none

def locksParticipant : Play → Option Uuid
  | scoreCommit score (some _) => some score.participantId
  | _ => none

/-- `Math.round(Number(event.scorePercent))`, of hundredths. -/
def mathRound (scorePercent : Nat) : Int := ((scorePercent + 50) / 100 : Nat)

section Reads

variable (db : Db)

def findRound (event : CompletionParams) : Next Play :=
  match db.attempt.roundParticipants.rows.find? fun row =>
      row.attemptId = some event.attemptId with
  | none => .done
  | some row =>
    .goto (.scoreUpdate
      { roundParticipantId := row.roundParticipantId, roundId := row.roundId,
        participantId := row.participantId, roundScore := mathRound event.scorePercent,
        roundTimeMs := event.timeTakenMs, nowIso := event.nowIso })

/-- The `int` columns of the round row, with their `CHECK`s. -/
def scoreFits (score : RoundScore) : Bool :=
  (0 ≤ score.roundScore ∧ IsInt4 score.roundScore) ∧
    (0 ≤ score.roundTimeMs ∧ IsInt4 score.roundTimeMs)

def aggregate (score : RoundScore) : Totals :=
  roundTotals (score.apply db.attempt.roundParticipants).rows score.participantId

/-- `total_score IS DISTINCT FROM agg.total_score OR …`, of the committed row. -/
def isDistinct (score : RoundScore) (totals : Totals) : Bool :=
  (db.participants.find? score.participantId).any fun p => p.totals ≠ totals

def findOpenRound (tournamentId roundId : Uuid) (user : JwtPayload) (nowIso : Int) : Next Play :=
  match db.rounds.find? roundId with
  | none => .failed roundNotFound
  | some round =>
    if round.tournamentId ≠ tournamentId then .failed roundNotFound
    else if round.status ≠ .open_ then .failed roundNotOpen
    else .goto (.startRoundDetail tournamentId roundId user nowIso)

/-- What `startRoundAttempt` passes to `startRoundAttemptTx`. -/
def roundParams (tournamentId roundId quizVersionId : Uuid) (user : JwtPayload)
    (participant : ParticipantRow) (nowIso : Int) : RoundParams :=
  { roundId, participantId := participant.participantId, userId := user.sub, quizVersionId,
    tournamentId, nowIso }

end Reads

/-- The next statement of a request; `none` when it has to wait for a row lock. -/
def step (db : Db) (locks : Locks) (d : Drawn) : Play → Option (Progress Play)
  | startRound tournamentId roundId user nowIso =>
    match db.getTournamentById tournamentId with
    | none => some (.goto (.failed tournamentNotFound))
    | some _ => some (.goto (.goto (.startRoundFind tournamentId roundId user nowIso)))
  | startRoundFind tournamentId roundId user nowIso =>
    some (.goto (findOpenRound db tournamentId roundId user nowIso))
  | startRoundDetail tournamentId roundId user nowIso =>
    match db.rounds.find? roundId with
    | none => some (.goto (.failed roundNotFound))
    | some detail =>
      some (.goto (.goto (.startRoundJoin tournamentId roundId detail.quizVersionId user nowIso)))
  | startRoundJoin tournamentId roundId quizVersionId user nowIso =>
    match db.getParticipantByUserAndTournament user.sub tournamentId with
    | none => some (.goto (.failed tournamentForbidden))
    | some participant =>
      if participant.status ≠ .active then some (.goto (.failed tournamentForbidden))
      else
        some ⟨.nothing, .done, some (roundParams tournamentId roundId quizVersionId user
          participant nowIso)⟩
  | attemptCompleted event => some (.goto (findRound db event))
  | scoreUpdate score =>
    if !scoreFits score then some (.goto (.failed databaseError))
    else if locks.roundParticipant score.key then none
    else some (.goto (.goto (.scoreRecalculate score)))
  | scoreRecalculate score =>
    let totals := aggregate db score
    if ¬ totals.IsInt4 then some (.goto (.failed databaseError))
    else if isDistinct db score totals then some (.goto (.goto (.scoreLock score totals)))
    else some (.goto (.goto (.scoreCommit score none)))
  | scoreLock score totals =>
    if locks.participant score.participantId then none
    else if isDistinct db score totals then
      some (.goto (.goto (.scoreCommit score (some totals))))
    else some (.goto (.goto (.scoreCommit score none)))
  | scoreCommit score totals => some (.commit (.scoreRound score totals d.now) .done)

end Play

end QuizBackend.Tournament
