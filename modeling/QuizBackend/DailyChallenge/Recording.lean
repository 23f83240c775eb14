import QuizBackend.DailyChallenge.Answers
import QuizBackend.Lib.Run

/-!
# Submissions that overlap

The submissions of one user for one challenge, each with a transaction of its own. `submitAnswer`
locks the attempt with `SELECT … FOR UPDATE`, which finds nothing to lock when there is no attempt
yet; the upsert that follows waits for every transaction that has written or locked the row, and then
overwrites what it finds. The event is dispatched in the middle of the transaction, and a transaction
may still be aborted after it.

What is written inside a transaction is seen by others after its commit only, so the attempt and the
outbox below are the committed ones. `getQuestionByPosition` is here a lookup that finds a question
for each index below the number of questions and for no other (`Challenge.lookup`). The read of the
challenge itself, which never changes, comes before everything and is left out; so are the rows that
others put into the outbox during the run, which have other keys.
-/

namespace QuizBackend.DailyChallenge

open Lib
open Attempt (QuestionJoinRow)
open Outbox (OutboxEvents OutboxRow NewEvent keyTaken)

structure Challenge where
  row : DailyChallengeRow
  userId : Uuid
  getQuestionByPosition : Nat → Option QuestionJoinRow
  allQuestions : List QuestionJoinRow
  lookup : ∀ i, (getQuestionByPosition i).isSome ↔ i < row.totalQuestions

/-! ## Submissions -/

structure Prepared where
  /-- The attempt it has locked, or none. -/
  read : Option DailyChallengeAttemptRow
  answered : Answered
  written : DailyChallengeAttemptRow
  nowIso : Int

inductive Phase where
  | begun
  | locked (read : Option DailyChallengeAttemptRow)
  | written (p : Prepared)
  | announced (p : Prepared)
  /-- `scheduleXpOutbox` has returned; a taken key has kept it from inserting. -/
  | scheduled (p : Prepared) (event : Option NewEvent)

structure Submission where
  callId : String
  payload : DailyChallengeAnswerDto
  phase : Phase

namespace Submission

section

variable (c : Submission)

def read : Option DailyChallengeAttemptRow :=
  match c.phase with
  | .begun => none
  | .locked read => read
  | .written p | .announced p | .scheduled p _ => p.read

def prepared : Option Prepared :=
  match c.phase with
  | .begun | .locked _ => none
  | .written p | .announced p | .scheduled p _ => some p

def holds : Bool :=
  match c.phase with
  | .begun => false
  | .locked read => read.isSome
  | .written _ | .announced _ | .scheduled .. => true

def committing : Bool :=
  match c.phase with
  | .begun | .locked _ | .written _ => false
  | .announced _ | .scheduled .. => true

def recorded : String := c.payload.selectedOptionId.getD SKIPPED_ANSWER_SENTINEL

end

end Submission

structure System where
  attempt : Option DailyChallengeAttemptRow
  outbox : OutboxEvents
  calls : Table String Submission (·.callId)
  answers : List (String × Except DailyChallengeError DailyChallengeAnswerResponseDto)
  emitted : List (String × DailyChallengeCompletedEvent)

inductive Act where
  | begin (callId : String) (payload : DailyChallengeAnswerDto)
  | lock (callId : String)
  | write (callId : String) (nowIso : Int)
  | announce (callId : String)
  | schedule (callId eventId correlationId : String)
  | commit (callId : String)
  | abort (callId : String)
  | process (eventId : String) (nowIso : Int)

def markProcessed (nowIso : Int) (row : OutboxRow) : OutboxRow :=
  { row with processedAt := some nowIso }

namespace System

def start (outbox : OutboxEvents) : System := ⟨none, outbox, .empty _, [], []⟩

section

variable (s : System)

section

variable (callId : String)

def answer (result : Except DailyChallengeError DailyChallengeAnswerResponseDto) : System :=
  { s with calls := s.calls.erase callId, answers := s.answers ++ [(callId, result)] }

def advance (phase : Phase) : System :=
  { s with calls := s.calls.modify callId (fun c => { c with phase }) fun _ => rfl }

def heldByOther : Bool :=
  s.calls.rows.any fun c => decide (c.callId ≠ callId) && c.holds

def begin (payload : DailyChallengeAnswerDto) : Option System :=
  if s.answers.any fun x => x.1 = callId then none
  else (s.calls.insert? ⟨callId, payload, .begun⟩).map fun calls => { s with calls }

end

/-- `SELECT … FOR UPDATE`: without a row it waits for nothing and locks nothing. -/
def lock (c : Submission) : Option System :=
  match c.phase with
  | .begun =>
    if s.attempt.isSome && s.heldByOther c.callId then none
    else some (s.advance c.callId (.locked s.attempt))
  | _ => none

section

variable (ch : Challenge)

/-- `INSERT … ON CONFLICT (challenge_id, user_id) DO UPDATE`, if the checks let it happen. -/
def write (c : Submission) (nowIso : Int) : Option System :=
  match c.phase with
  | .locked read =>
    match answered ch.row ch.getQuestionByPosition read c.payload with
    | .error e => some (s.answer c.callId (.error e))
    | .ok a =>
      if s.heldByOther c.callId then none
      else
        let written := upsertAttempt s.attempt ch.row ch.userId a nowIso
        some (s.advance c.callId (.written ⟨read, a, written, nowIso⟩))
  | _ => none

def announce (c : Submission) : Option System :=
  match c.phase with
  | .written p =>
    if p.answered.completed then
      let event := completedEvent ch.row ch.userId ch.allQuestions p.answered.nextAnswers p.nowIso
      some { s.advance c.callId (.announced p) with emitted := s.emitted ++ [(c.callId, event)] }
    else none
  | _ => none

/-- `INSERT … ON CONFLICT (idempotency_key) WHERE … DO NOTHING`, with a new key. -/
def schedule (c : Submission) (eventId correlationId : String) :
    Option System :=
  match c.phase with
  | .announced p =>
    if 0 < ch.row.rewardXp ∧ s.outbox.find? eventId = none then
      let event := xpEvent ch.row ch.userId eventId correlationId p.nowIso
      some (s.advance c.callId
        (.scheduled p (if keyTaken s.outbox event.idempotencyKey then none else some event)))
    else none
  | _ => none

def commitWith (callId : String) (p : Prepared)
    (event : Option NewEvent) : System :=
  { s.answer callId (.ok (response ch.row ch.allQuestions p.answered)) with
    attempt := some p.written
    outbox := event.elim s.outbox fun e => (s.outbox.insert? e.row).getD s.outbox }

def commit (c : Submission) : Option System :=
  match c.phase with
  | .written p => if p.answered.completed then none else some (s.commitWith ch c.callId p none)
  | .announced p =>
    if 0 < ch.row.rewardXp then none else some (s.commitWith ch c.callId p none)
  | .scheduled p event => some (s.commitWith ch c.callId p event)
  | _ => none

end

end

def step (ch : Challenge) (s : System) : Act → Option System
  | .begin callId payload => s.begin callId payload
  | .lock callId => (s.calls.find? callId).bind s.lock
  | .write callId nowIso => (s.calls.find? callId).bind fun c => s.write ch c nowIso
  | .announce callId => (s.calls.find? callId).bind (s.announce ch)
  | .schedule callId eventId correlationId =>
    (s.calls.find? callId).bind fun c => s.schedule ch c eventId correlationId
  | .commit callId => (s.calls.find? callId).bind (s.commit ch)
  | .abort callId => (s.calls.find? callId).map fun _ => s.answer callId (.error .database)
  | .process eventId nowIso =>
    some { s with outbox := s.outbox.modify eventId (markProcessed nowIso) fun _ => rfl }

end System

end QuizBackend.DailyChallenge
