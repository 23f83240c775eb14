import QuizBackend.Attempt.Review
import QuizBackend.Attempt.Scoring
import QuizBackend.Outbox.Events
import QuizBackend.Lib.Calendar

/-!
# Answers to the daily challenge (`daily-challenge.application.service.ts`)

A submission names the index of the question it answers and an option, or none if the question is
skipped. What it is going to write is computed from the attempt it finds (`answered`); the rest of the
body are one upsert and, where the answer is the last, one event and one row of the outbox. Here are
these computations, without the order in which a database lets them happen.

The question is looked up by its *position*, the score takes the answers for *rows of the join* of
questions and options. What comes of it is in `DailyChallenge.Play`.

A score is in hundredths of a percent, as in `Attempt.Scoring`. The `attempt_id` of an attempt, which
nothing reads, is left out.
-/

namespace QuizBackend.DailyChallenge

open Lib
open Attempt (QuestionJoinRow calculateScorePercent)
open Outbox (JsonValue NewEvent)

/-! ## Rows -/

structure DailyChallengeRow where
  challengeId : Uuid
  challengeDate : String
  quizId : Uuid
  quizVersionId : Uuid
  rewardXp : Int
  createdAt : Int
  expiresAt : Int
  totalQuestions : Nat
  deriving DecidableEq

structure DailyChallengeAttemptRow where
  challengeId : Uuid
  userId : Uuid
  answers : List String
  nextQuestionIndex : Nat
  totalQuestions : Option Nat
  scorePercent : Option Nat
  completedAt : Option Int
  createdAt : Int
  updatedAt : Int

structure DailyChallengeAnswerDto where
  questionIndex : Int
  selectedOptionId : Option String

structure DailyChallengeAnswerResponseDto where
  correct : Bool
  nextQuestionIndex : Nat
  totalQuestions : Nat
  completed : Bool
  scorePercent : Option Nat
  deriving DecidableEq

structure DailyChallengeCompletedEvent where
  challengeId : Uuid
  userId : Uuid
  scorePercent : Nat
  correctCount : Nat
  totalQuestions : Nat
  completedAtIso : Int
  rewardXp : Int

inductive DailyChallengeError where
  | notFound (message : String)
  | conflict (message : String)
  | payloadValidation (field message : String)
  | database
  deriving DecidableEq

def notFoundMessage : String := "No active daily challenge for today."
def questionNotFoundMessage : String :=
  "Daily challenge question at the requested index could not be located."
def conflictMessage : String :=
  "Daily challenge attempt is out of sync with the next question index."

/-! ## The next answer -/

def SKIPPED_ANSWER_SENTINEL : String := "__skipped__"

def buildNextAnswers (previousAnswers : List String) (nextIndex : Nat) (answer : Option String) :
    List String :=
  let padded :=
    if previousAnswers.length ≤ nextIndex then
      previousAnswers ++ List.replicate (nextIndex - previousAnswers.length) SKIPPED_ANSWER_SENTINEL
    else previousAnswers
  padded.take nextIndex ++ answer.getD SKIPPED_ANSWER_SENTINEL :: padded.drop (nextIndex + 1)

def isCorrect (currentQuestion : QuestionJoinRow) (answer : Option String) : Bool :=
  match answer, currentQuestion.2 with
  | some answer, some option => decide (option.optionId.text = answer) && option.isCorrect
  | _, _ => false

structure Answered where
  correct : Bool
  nextAnswers : List String
  nextQuestionIndex : Nat
  completed : Bool

/-- The body of `submitAnswer` from the attempt it has locked to its first write. -/
def answered (row : DailyChallengeRow) (getQuestionByPosition : Nat → Option QuestionJoinRow)
    (attempt : Option DailyChallengeAttemptRow) (payload : DailyChallengeAnswerDto) :
    Except DailyChallengeError Answered :=
  let nextIndex := attempt.elim 0 (·.nextQuestionIndex)
  if payload.questionIndex ≠ nextIndex then .error (.conflict conflictMessage)
  else
    match getQuestionByPosition nextIndex with
    | none => .error (.notFound questionNotFoundMessage)
    | some currentQuestion =>
      .ok
        { correct := isCorrect currentQuestion payload.selectedOptionId
          nextAnswers :=
            buildNextAnswers (attempt.elim [] (·.answers)) nextIndex payload.selectedOptionId
          nextQuestionIndex := nextIndex + 1
          completed := decide (row.totalQuestions ≤ nextIndex + 1) }

/-- `upsertAttempt`, with the row that is there when it is executed. The score is `null` whether or
not the attempt is completed. -/
def upsertAttempt (existing : Option DailyChallengeAttemptRow) (row : DailyChallengeRow)
    (userId : Uuid) (a : Answered) (nowIso : Int) : DailyChallengeAttemptRow :=
  { challengeId := row.challengeId, userId, answers := a.nextAnswers
    nextQuestionIndex := a.nextQuestionIndex, totalQuestions := some row.totalQuestions
    scorePercent := none, completedAt := if a.completed then some nowIso else none
    createdAt := existing.elim nowIso (·.createdAt), updatedAt := nowIso }

/-! ## The score -/

section

variable (allQuestions : List QuestionJoinRow)

/-- `posToCorrectOption.get(questionId)`: of two correct options the later one is in the map. -/
def posToCorrectOption (questionId : Uuid) : Option String :=
  (allQuestions.reverse.find? fun q =>
    decide (q.1.questionId = questionId) && q.2.any (·.isCorrect)).bind fun q =>
      q.2.map (·.optionId.text)

/-- Whether the `i`-th answer counts: it is compared with the question of the `i`-th *row*. -/
def counts (i : Nat) (answer : String) : Bool :=
  answer != "" && answer != SKIPPED_ANSWER_SENTINEL &&
    allQuestions[i]?.any fun q =>
      decide (posToCorrectOption allQuestions q.1.questionId = some answer)

def computeCorrectCount (answers : List String) : Nat :=
  answers.zipIdx.countP fun (answer, i) => counts allQuestions i answer

def computeScorePercent (answers : List String) : Nat :=
  calculateScorePercent (computeCorrectCount allQuestions answers) allQuestions.length

end

section

variable (row : DailyChallengeRow)

def finalScorePercent (allQuestions : List QuestionJoinRow)
    (nextAnswers : List String) : Nat :=
  if 0 < row.totalQuestions then computeScorePercent allQuestions nextAnswers else 0

def completedEvent (userId : Uuid) (allQuestions : List QuestionJoinRow)
    (nextAnswers : List String) (nowIso : Int) : DailyChallengeCompletedEvent :=
  { challengeId := row.challengeId, userId
    scorePercent := finalScorePercent row allQuestions nextAnswers
    correctCount := computeCorrectCount allQuestions nextAnswers
    totalQuestions := row.totalQuestions, completedAtIso := nowIso, rewardXp := row.rewardXp }

def response (allQuestions : List QuestionJoinRow) (a : Answered) :
    DailyChallengeAnswerResponseDto :=
  { correct := a.correct, nextQuestionIndex := a.nextQuestionIndex
    totalQuestions := row.totalQuestions, completed := a.completed
    scorePercent :=
      if a.completed then some (finalScorePercent row allQuestions a.nextAnswers) else none }

end

/-! ## The reward (`daily-challenge-xp-outbox.adapter.ts`) -/

/-- `` `xp:${userId}:daily_challenge:${challengeId}` ``. -/
def xpIdempotencyKey (userId challengeId : Uuid) : String :=
  "xp:" ++ userId.text ++ ":daily_challenge:" ++ challengeId.text

def typeName : Option JsonValue → String
  | none => "undefined"
  | some (.bool _) => "boolean"
  | some (.num _) => "number"
  | some (.str _) => "string"
  | some .null | some (.raw _) => "object"

section

variable (value : Option JsonValue)

def requireString (field : String) : Except DailyChallengeError JsonValue :=
  match value with
  | some (.str s) =>
    if s = "" then
      .error (.payloadValidation field s!"expected non-empty string, got {typeName value}")
    else .ok (.str s)
  | _ => .error (.payloadValidation field s!"expected non-empty string, got {typeName value}")

def requireNumber (field : String) : Except DailyChallengeError JsonValue :=
  match value with
  | some (.num n) => .ok (.num n)
  | _ => .error (.payloadValidation field s!"expected finite number, got {typeName value}")

def optionalString (field : String) :
    Except DailyChallengeError (Option JsonValue) :=
  match value with
  | none => .ok none
  | some (.str s) => .ok (some (.str s))
  | _ => .error (.payloadValidation field s!"expected string when present, got {typeName value}")

end

def parseDailyChallengeXpOutboxPayload (value : List (String × JsonValue)) :
    Except DailyChallengeError (List (String × JsonValue)) := do
  let userId ← requireString (value.lookup "userId") "userId"
  let challengeId ← requireString (value.lookup "challengeId") "challengeId"
  let amount ← requireNumber (value.lookup "amount") "amount"
  let idempotencyKey ← requireString (value.lookup "idempotencyKey") "idempotencyKey"
  let correlationId ← optionalString (value.lookup "correlationId") "correlationId"
  let timestamp ← requireString (value.lookup "timestamp") "timestamp"
  return [("userId", userId), ("challengeId", challengeId), ("amount", amount),
    ("idempotencyKey", idempotencyKey)] ++ (correlationId.map fun c => ("correlationId", c)).toList ++
    [("timestamp", timestamp)]

def xpPayload (row : DailyChallengeRow) (userId : Uuid) (correlationId : String) (nowIso : Int) :
    List (String × JsonValue) :=
  [("userId", .str userId.text), ("challengeId", .str row.challengeId.text),
   ("amount", .num row.rewardXp),
   ("idempotencyKey", .str (xpIdempotencyKey userId row.challengeId)),
   ("correlationId", .str correlationId), ("timestamp", .str (toISOString nowIso))]

/-- The values of the adapter's `INSERT`, once the payload has been parsed. -/
def xpEvent (row : DailyChallengeRow) (userId : Uuid) (eventId correlationId : String)
    (nowIso : Int) : NewEvent :=
  { eventId, aggregateType := "daily_challenge", eventType := "daily_challenge.xp_to_publish"
    payload := xpPayload row userId correlationId nowIso, createdAt := nowIso
    nextAttemptAt := nowIso, idempotencyKey := some (xpIdempotencyKey userId row.challengeId)
    correlationId := some correlationId }

theorem toISOString_ne_empty (t : Int) : toISOString t ≠ "" := by
  intro h
  have hlength := congrArg (fun s : String => s.length) h
  simp only [toISOString, String.length_append] at hlength
  have hpoint : ("." : String).length = 1 := rfl
  rw [hpoint, String.length_empty] at hlength
  omega

theorem xpIdempotencyKey_ne_empty (userId challengeId : Uuid) :
    xpIdempotencyKey userId challengeId ≠ "" := by
  intro h
  have hlength := congrArg (fun s : String => s.length) h
  simp only [xpIdempotencyKey, String.length_append] at hlength
  have hxp : ("xp:" : String).length = 3 := rfl
  rw [hxp, String.length_empty] at hlength
  omega

theorem requireString_str {s : String} (h : s ≠ "") (field : String) :
    requireString (some (.str s)) field = .ok (.str s) := if_neg h

/-- **The adapter accepts what the service schedules**, as it is: only the database can refuse it. -/
theorem parse_xpPayload (row : DailyChallengeRow) (userId : Uuid) (correlationId : String)
    (nowIso : Int) :
    parseDailyChallengeXpOutboxPayload (xpPayload row userId correlationId nowIso)
      = .ok (xpPayload row userId correlationId nowIso) := by
  let payload := xpPayload row userId correlationId nowIso
  have huser : requireString (payload.lookup "userId") "userId" = .ok (.str userId.text) :=
    requireString_str userId.text_ne_empty _
  have hchallenge : requireString (payload.lookup "challengeId") "challengeId"
      = .ok (.str row.challengeId.text) := requireString_str row.challengeId.text_ne_empty _
  have hkey : requireString (payload.lookup "idempotencyKey") "idempotencyKey"
      = .ok (.str (xpIdempotencyKey userId row.challengeId)) :=
    requireString_str (xpIdempotencyKey_ne_empty userId row.challengeId) _
  have htime : requireString (payload.lookup "timestamp") "timestamp"
      = .ok (.str (toISOString nowIso)) := requireString_str (toISOString_ne_empty nowIso) _
  unfold parseDailyChallengeXpOutboxPayload
  rw [huser, hchallenge, hkey, htime]
  rfl

/-! ## The recorded answers -/

theorem answered_eq_ok {row : DailyChallengeRow} {lookup : Nat → Option QuestionJoinRow}
    {attempt : Option DailyChallengeAttemptRow} {payload : DailyChallengeAnswerDto} {a : Answered}
    (h : answered row lookup attempt payload = .ok a) :
    ∃ currentQuestion, payload.questionIndex = attempt.elim 0 (·.nextQuestionIndex) ∧
      lookup (attempt.elim 0 (·.nextQuestionIndex)) = some currentQuestion ∧
      a.nextAnswers = buildNextAnswers (attempt.elim [] (·.answers))
        (attempt.elim 0 (·.nextQuestionIndex)) payload.selectedOptionId ∧
      a.nextQuestionIndex = attempt.elim 0 (·.nextQuestionIndex) + 1 ∧
      a.completed = decide (row.totalQuestions ≤ a.nextQuestionIndex) := by
  simp only [answered] at h
  split at h
  · cases h
  · next hindex =>
    split at h
    · cases h
    · next currentQuestion hlookup =>
      cases h
      exact ⟨currentQuestion, not_not.mp hindex, hlookup, rfl, rfl, rfl⟩

theorem buildNextAnswers_length (answers : List String) (answer : Option String) :
    buildNextAnswers answers answers.length answer
      = answers ++ [answer.getD SKIPPED_ANSWER_SENTINEL] := by
  have hdrop : answers.drop (answers.length + 1) = [] :=
    List.drop_eq_nil_of_le (Nat.le_succ _)
  simp only [buildNextAnswers, le_refl, if_true, Nat.sub_self, List.replicate_zero,
    List.append_nil, List.take_length, hdrop]

end QuizBackend.DailyChallenge
