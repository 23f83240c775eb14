import QuizBackend.Attempt.Scoring
import QuizBackend.Outbox.Events
import QuizBackend.Streak.Cache
import QuizBackend.Lib.Uuid

/-!
# The tables of the attempt module

The rows the attempt module reads and writes, and its writes: one definition for each committed
change of the database, under the name of the repository method that makes it. A write is what a
transaction leaves behind when it commits; which statements of it other requests can already see
or have to wait for is the business of `Attempt.Requests`.

The content of published quizzes does not change while attempts run on it and is a parameter, the
`Catalog`. Instants are milliseconds, also inside payloads; a score is in hundredths of a percent.
-/

namespace QuizBackend.Attempt

open Lib Outbox Streak

/-! ## Rows -/

inductive AttemptStatus where
  | started | completed | abandoned
  deriving DecidableEq

inductive AttemptContextType where
  | solo | tournament
  deriving DecidableEq

structure AttemptRow where
  attemptId : Uuid
  userId : Uuid
  quizVersionId : Uuid
  contextType : AttemptContextType
  contextRefId : Option Uuid
  status : AttemptStatus
  scorePercent : Option Nat
  correctCount : Option Nat
  startedAt : Int
  finishedAt : Option Int
  timeTakenMs : Option Int
  xpEarned : Int
  createdAt : Int
  updatedAt : Int
  deriving DecidableEq

structure AttemptAnswerRow where
  attemptAnswerId : Uuid
  attemptId : Uuid
  questionId : Uuid
  selectedOptionId : Option Uuid
  answeredAt : Int
  timeTakenMs : Option Int

def AttemptAnswerRow.key (row : AttemptAnswerRow) : Uuid × Uuid := (row.attemptId, row.questionId)

inductive AttemptEvent where
  | answerSubmitted (answeredAt : Int) (timeTakenMs : Option Int)
  | abandoned (abandonedAt : Int)
  | completed (scorePercent correctCount : Nat) (timeTakenMs xpEarned completedAt : Int)

def AttemptEvent.isCompleted : AttemptEvent → Bool
  | .completed .. => true
  | _ => false

structure AttemptEventRow where
  attemptId : Uuid
  event : AttemptEvent
  questionId : Option Uuid
  selectedOptionId : Option Uuid
  createdAt : Int

structure QuizStatsRow where
  quizId : Uuid
  totalAttempts : Nat
  totalPlayers : Nat
  avgScorePercent : Nat
  lastAttemptAt : Option Int
  updatedAt : Int

structure RoundParticipantRow where
  roundParticipantId : Uuid
  roundId : Uuid
  participantId : Uuid
  attemptId : Option Uuid
  joinedAt : Int
  roundScore : Int
  roundTimeMs : Int
  rankInRound : Option Int
  isQualified : Bool
  updatedAt : Int

def RoundParticipantRow.key (row : RoundParticipantRow) : Uuid × Uuid :=
  (row.roundId, row.participantId)

structure Db where
  quizAttempts : Table Uuid AttemptRow AttemptRow.attemptId
  quizAttemptAnswers : Table (Uuid × Uuid) AttemptAnswerRow AttemptAnswerRow.key
  quizAttemptEvents : List AttemptEventRow
  quizStats : Table Uuid QuizStatsRow QuizStatsRow.quizId
  outboxEvents : OutboxEvents
  users : Table Uuid UserRow UserRow.userId
  roundParticipants : Table (Uuid × Uuid) RoundParticipantRow RoundParticipantRow.key

def Db.initial (users : Table Uuid UserRow UserRow.userId)
    (roundParticipants : Table (Uuid × Uuid) RoundParticipantRow RoundParticipantRow.key) : Db :=
  { quizAttempts := Table.empty _, quizAttemptAnswers := Table.empty _, quizAttemptEvents := [],
    quizStats := Table.empty _, outboxEvents := Table.empty _, users, roundParticipants }

/-! ## The catalog -/

structure QuizVersion where
  quizId : Uuid
  passingScorePercent : Int
  rewardXp : Int

structure AnswerOption where
  questionId : Uuid
  isCorrect : Bool

structure Catalog where
  publishedVersionId : Uuid → Option Uuid
  version : Uuid → Option QuizVersion
  quizDeleted : Uuid → Bool
  questionCount : Uuid → Nat
  questionVersionId : Uuid → Option Uuid
  option : Uuid → Option AnswerOption
  tournamentExists : Uuid → Bool

/-- What the database draws for a statement: the ids of the rows it inserts and its `NOW()`; and
what `createCorrelationId()` draws. -/
structure Drawn where
  id : Uuid
  roundParticipantId : Uuid
  eventId : String
  correlationId : String
  now : Int
  deriving DecidableEq

/-! ## `INSERT INTO quiz_attempts` -/

structure StartParams where
  userId : Uuid
  quizVersionId : Uuid
  contextType : AttemptContextType
  contextRefId : Option Uuid
  nowIso : Int
  deriving DecidableEq

/-- The row of a new attempt; the columns not given have their defaults. -/
def StartParams.row (p : StartParams) (attemptId : Uuid) : AttemptRow :=
  { attemptId, userId := p.userId, quizVersionId := p.quizVersionId, contextType := p.contextType,
    contextRefId := p.contextRefId, status := .started, scorePercent := none, correctCount := none,
    startedAt := p.nowIso, finishedAt := none, timeTakenMs := none, xpEarned := 0,
    createdAt := p.nowIso, updatedAt := p.nowIso }

def Db.createAttempt (db : Db) (attemptId : Uuid) (p : StartParams) : Db :=
  { db with quizAttempts := (db.quizAttempts.insert? (p.row attemptId)).getD db.quizAttempts }

structure RoundParams where
  roundId : Uuid
  participantId : Uuid
  userId : Uuid
  quizVersionId : Uuid
  tournamentId : Uuid
  nowIso : Int
  deriving DecidableEq

def RoundParams.start (p : RoundParams) : StartParams :=
  { userId := p.userId, quizVersionId := p.quizVersionId, contextType := .tournament,
    contextRefId := some p.tournamentId, nowIso := p.nowIso }

def RoundParams.participant (p : RoundParams) (roundParticipantId : Uuid) : RoundParticipantRow :=
  { roundParticipantId, roundId := p.roundId, participantId := p.participantId, attemptId := none,
    joinedAt := p.nowIso, roundScore := 0, roundTimeMs := 0, rankInRound := none,
    isQualified := true, updatedAt := p.nowIso }

def linkAttempt (attemptId : Uuid) (nowIso : Int) (row : RoundParticipantRow) :
    RoundParticipantRow :=
  { row with attemptId := some attemptId, updatedAt := nowIso }

theorem linkAttempt_key (attemptId : Uuid) (nowIso : Int) (row : RoundParticipantRow) :
    (linkAttempt attemptId nowIso row).key = row.key := rfl

/-- `startRoundAttemptTx`, when the participant has no attempt in the round yet. -/
def Db.startRoundAttemptTx (db : Db) (d : Drawn) (p : RoundParams) : Db :=
  let joined :=
    (db.roundParticipants.insert? (p.participant d.roundParticipantId)).getD db.roundParticipants
  { db.createAttempt d.id p.start with
    roundParticipants :=
      joined.modify (p.roundId, p.participantId) (linkAttempt d.id p.nowIso)
        (linkAttempt_key d.id p.nowIso) }

/-! ## Answers -/

structure AnswerParams where
  attemptId : Uuid
  questionId : Uuid
  selectedOptionId : Option Uuid
  nowIso : Int
  timeTakenMs : Option Int
  deriving DecidableEq

def AnswerParams.row (p : AnswerParams) (attemptAnswerId : Uuid) : AttemptAnswerRow :=
  { attemptAnswerId, attemptId := p.attemptId, questionId := p.questionId,
    selectedOptionId := p.selectedOptionId, answeredAt := p.nowIso, timeTakenMs := p.timeTakenMs }

def Db.submitAnswer (db : Db) (d : Drawn) (p : AnswerParams) : Db :=
  { db with
    quizAttemptAnswers := (db.quizAttemptAnswers.insert? (p.row d.id)).getD db.quizAttemptAnswers
    quizAttemptEvents := db.quizAttemptEvents ++
      [{ attemptId := p.attemptId, event := .answerSubmitted p.nowIso p.timeTakenMs,
         questionId := some p.questionId, selectedOptionId := p.selectedOptionId,
         createdAt := d.now }] }

def Db.deleteAnswer (db : Db) (attemptId questionId : Uuid) : Db :=
  { db with quizAttemptAnswers := db.quizAttemptAnswers.erase (attemptId, questionId) }

/-! ## Abandoning -/

structure AbandonParams where
  attemptId : Uuid
  userId : Uuid
  nowIso : Int
  deriving DecidableEq

def setAbandoned (nowIso : Int) (row : AttemptRow) : AttemptRow :=
  { row with status := .abandoned, finishedAt := some nowIso, updatedAt := nowIso }

theorem setAbandoned_attemptId (nowIso : Int) (row : AttemptRow) :
    (setAbandoned nowIso row).attemptId = row.attemptId := rfl

def Db.abandonAttempt (db : Db) (d : Drawn) (p : AbandonParams) : Db :=
  { db with
    quizAttempts := db.quizAttempts.modify p.attemptId (setAbandoned p.nowIso)
      (setAbandoned_attemptId p.nowIso)
    quizAttemptEvents := db.quizAttemptEvents ++
      [{ attemptId := p.attemptId, event := .abandoned p.nowIso, questionId := none,
         selectedOptionId := none, createdAt := d.now }] }

/-! ## Completing -/

structure XpOutbox where
  idempotencyKey : String
  correlationId : String
  deriving DecidableEq

/-- The parameters of `completeAttemptAndSideEffects`. The last two columns are not among them:
the service keeps them for the event it emits. -/
structure CompletionParams where
  attemptId : Uuid
  scorePercent : Nat
  correctCount : Nat
  timeTakenMs : Int
  xpEarned : Int
  nowIso : Int
  quizId : Uuid
  userId : Uuid
  xpOutbox : Option XpOutbox
  quizVersionId : Uuid
  totalAnswers : Nat
  deriving DecidableEq

section

variable (p : CompletionParams)

def setCompleted (row : AttemptRow) : AttemptRow :=
  { row with
    status := .completed, scorePercent := some p.scorePercent,
    correctCount := some p.correctCount, timeTakenMs := some p.timeTakenMs,
    xpEarned := p.xpEarned, finishedAt := some p.nowIso, updatedAt := p.nowIso }

theorem setCompleted_attemptId (row : AttemptRow) :
    (setCompleted p row).attemptId = row.attemptId := rfl

/-- The `DO UPDATE` of the `quiz_stats` upsert; the cast to `numeric(5,2)` rounds half up. -/
def bumpStats (row : QuizStatsRow) : QuizStatsRow :=
  let sum := row.avgScorePercent * row.totalAttempts + p.scorePercent
  let n := row.totalAttempts + 1
  { row with
    totalAttempts := n, avgScorePercent := (2 * sum + n) / (2 * n),
    lastAttemptAt := some p.nowIso, updatedAt := p.nowIso }

theorem bumpStats_quizId (row : QuizStatsRow) :
    (bumpStats p row).quizId = row.quizId := rfl

end

/-- `INSERT INTO quiz_stats … ON CONFLICT (quiz_id) DO UPDATE`. -/
def upsertQuizStats (stats : Table Uuid QuizStatsRow QuizStatsRow.quizId) (p : CompletionParams) :
    Table Uuid QuizStatsRow QuizStatsRow.quizId :=
  match stats.insert?
      { quizId := p.quizId, totalAttempts := 1, totalPlayers := 1,
        avgScorePercent := p.scorePercent, lastAttemptAt := some p.nowIso, updatedAt := p.nowIso }
    with
  | some inserted => inserted
  | none => stats.modify p.quizId (bumpStats p) (bumpStats_quizId p)

def xpIdempotencyKey (userId attemptId : Uuid) : String :=
  "xp:" ++ userId.text ++ ":attempt:" ++ attemptId.text

def xpEvent (d : Drawn) (p : CompletionParams) (xp : XpOutbox) : NewEvent :=
  { eventId := d.eventId, aggregateType := "attempt", eventType := "attempt.xp_to_publish",
    payload :=
      [("userId", .str p.userId.text), ("attemptId", .str p.attemptId.text),
       ("amount", .num p.xpEarned), ("idempotencyKey", .str xp.idempotencyKey),
       ("correlationId", .str xp.correlationId), ("timestamp", .num p.nowIso)],
    createdAt := p.nowIso, nextAttemptAt := d.now, idempotencyKey := some xp.idempotencyKey,
    correlationId := some xp.correlationId }

def publishXp (events : OutboxEvents) (d : Drawn) (p : CompletionParams) : OutboxEvents :=
  match p.xpOutbox with
  | some xp => if 0 < p.xpEarned then insertEvent events (xpEvent d p xp) else events
  | none => events

theorem updateStreak_userId (finishedAt : Int) (row : UserRow) :
    (updateStreak row finishedAt).userId = row.userId := by
  simp only [updateStreak]
  split <;> rfl

/-- `completeAttemptAndSideEffects`: the attempt, the statistics of its quiz, the audit row, the
XP event and the streak of its user. -/
def Db.completeAttemptAndSideEffects (db : Db) (d : Drawn) (p : CompletionParams) : Db :=
  { db with
    quizAttempts := db.quizAttempts.modify p.attemptId (setCompleted p) (setCompleted_attemptId p)
    quizStats := upsertQuizStats db.quizStats p
    quizAttemptEvents := db.quizAttemptEvents ++
      [{ attemptId := p.attemptId,
         event := .completed p.scorePercent p.correctCount p.timeTakenMs p.xpEarned p.nowIso,
         questionId := none, selectedOptionId := none, createdAt := d.now }]
    outboxEvents := publishXp db.outboxEvents d p
    users := db.users.modify p.userId (fun row => updateStreak row p.nowIso)
      (updateStreak_userId p.nowIso) }

/-! ## Writes -/

structure DeliveryColumns where
  processedAt : Option Int
  attemptCount : Nat
  lastAttemptAt : Option Int
  nextAttemptAt : Int
  lastError : Option String
  failedAt : Option Int
  dlqReason : Option String
  deriving DecidableEq

def DeliveryColumns.set (c : DeliveryColumns) (row : OutboxRow) : OutboxRow :=
  { row with
    processedAt := c.processedAt, attemptCount := c.attemptCount,
    lastAttemptAt := c.lastAttemptAt, nextAttemptAt := c.nextAttemptAt,
    lastError := c.lastError, failedAt := c.failedAt, dlqReason := c.dlqReason }

theorem DeliveryColumns.set_eventId (c : DeliveryColumns) (row : OutboxRow) :
    (c.set row).eventId = row.eventId := rfl

inductive Write where
  | nothing
  | createAttempt (attemptId : Uuid) (p : StartParams)
  | startRoundAttempt (d : Drawn) (p : RoundParams)
  | submitAnswer (d : Drawn) (p : AnswerParams)
  | deleteAnswer (attemptId questionId : Uuid)
  | abandonAttempt (d : Drawn) (p : AbandonParams)
  | completeAttempt (d : Drawn) (p : CompletionParams)
  | writeBack (eventId : String) (c : DeliveryColumns)
  deriving DecidableEq

def Db.apply (db : Db) : Write → Db
  | .nothing => db
  | .createAttempt attemptId p => db.createAttempt attemptId p
  | .startRoundAttempt d p => db.startRoundAttemptTx d p
  | .submitAnswer d p => db.submitAnswer d p
  | .deleteAnswer attemptId questionId => db.deleteAnswer attemptId questionId
  | .abandonAttempt d p => db.abandonAttempt d p
  | .completeAttempt d p => db.completeAttemptAndSideEffects d p
  | .writeBack eventId c =>
    { db with outboxEvents := db.outboxEvents.modify eventId c.set c.set_eventId }

/-! ## Reads -/

def Db.getActiveAttemptByUserAndVersion (db : Db) (userId quizVersionId : Uuid) :
    Option AttemptRow :=
  db.quizAttempts.rows.find? fun row =>
    row.userId = userId ∧ row.quizVersionId = quizVersionId ∧ row.status = .started

def Db.answersOf (db : Db) (attemptId : Uuid) : List AttemptAnswerRow :=
  db.quizAttemptAnswers.rows.filter fun row => row.attemptId = attemptId

structure ScoringData where
  totalAnswers : Nat
  correctCount : Nat
  deriving DecidableEq

/-- `getAttemptAnswerScoringData` over the answers of an attempt. The join with
`quiz_answer_options` is an inner one: a skipped question counts nowhere. -/
def scoringData (cat : Catalog) (answers : List AttemptAnswerRow) : ScoringData :=
  let options := answers.filterMap fun row => row.selectedOptionId.bind cat.option
  { totalAnswers := options.length, correctCount := options.countP (·.isCorrect) }

def Db.getAttemptAnswerScoringData (db : Db) (cat : Catalog) (attemptId : Uuid) : ScoringData :=
  scoringData cat (db.answersOf attemptId)

def Db.completedCount (db : Db) (userId : Uuid) : Nat :=
  db.quizAttempts.rows.countP fun row => row.userId = userId ∧ row.status = .completed

end QuizBackend.Attempt
