import QuizBackend.Lib.Uuid
import QuizBackend.Outbox.Events

/-!
# Tournament events in the outbox

Five kinds of events are scheduled by `tournament.service.ts` and `tournament-lifecycle.service.ts`
as object literals, stored as `jsonb`, and read back by `deserializePayload` of the outbox
processor, which looks every field up by its name and passes it to a positional constructor.
Nothing ties the two lists of names together.

`Scheduled` is what a producer puts into an event and `Scheduled.payload` the literal it writes;
`Scheduled.expected` is the event with each of these values in the field of its name.
`roundTrips_iff` compares: four kinds come back whole, and `tournament.starting_soon` never does,
because its producer writes `startedAt` and the processor reads `startsAt`.

An instant stands in a payload as its number of milliseconds, where the source has its ISO text.
-/

namespace QuizBackend.Tournament

open Lib Outbox

/-! ## What the producers write -/

inductive Scheduled where
  | joined (tournamentId userId : Uuid) (tournamentTitle : String) (categoryTitle : Option String)
      (timestamp : Int)
  | withdrawn (tournamentId userId : Uuid) (timestamp : Int)
  | startingSoon (tournamentId userId : Uuid) (tournamentTitle : String)
      (categoryTitle : Option String) (startAt timestamp : Int)
  | completed (tournamentId userId : Uuid) (tournamentTitle : String)
      (categoryTitle : Option String) (rank totalParticipants timestamp : Int)
  | won (tournamentId userId : Uuid) (tournamentTitle : String) (categoryTitle : Option String)
      (rank : Int) (prize : Option String) (timestamp : Int)

/-- A JavaScript object as `jsonb` keeps it: members that are `undefined` are dropped. -/
def jsonb (members : List (String × Option JsonValue)) : List (String × JsonValue) :=
  members.filterMap fun m => m.2.map (m.1, ·)

/-- `string | null`. -/
def nullable : Option String → JsonValue
  | some s => .str s
  | none => .null

namespace Scheduled

def eventType : Scheduled → String
  | .joined .. => "tournament.joined"
  | .withdrawn .. => "tournament.participant.withdrawn"
  | .startingSoon .. => "tournament.starting_soon"
  | .completed .. => "tournament.completed"
  | .won .. => "tournament.won"

def payload (e : Scheduled) : List (String × JsonValue) :=
  match e with
  | .joined tournamentId userId tournamentTitle categoryTitle timestamp =>
    jsonb [("eventType", some (.str e.eventType)),
      ("tournamentId", some (.str tournamentId.text)),
      ("userId", some (.str userId.text)),
      ("tournamentTitle", some (.str tournamentTitle)),
      ("categoryTitle", some (nullable categoryTitle)),
      ("timestamp", some (.num timestamp))]
  | .withdrawn tournamentId userId timestamp =>
    jsonb [("eventType", some (.str e.eventType)),
      ("tournamentId", some (.str tournamentId.text)),
      ("userId", some (.str userId.text)),
      ("timestamp", some (.num timestamp))]
  | .startingSoon tournamentId userId tournamentTitle categoryTitle startAt timestamp =>
    jsonb [("eventType", some (.str e.eventType)),
      ("tournamentId", some (.str tournamentId.text)),
      ("userId", some (.str userId.text)),
      ("tournamentTitle", some (.str tournamentTitle)),
      ("categoryTitle", some (nullable categoryTitle)),
      ("startedAt", some (.num startAt)),
      ("timestamp", some (.num timestamp))]
  | .completed tournamentId userId tournamentTitle categoryTitle rank totalParticipants timestamp =>
    jsonb [("eventType", some (.str e.eventType)),
      ("tournamentId", some (.str tournamentId.text)),
      ("userId", some (.str userId.text)),
      ("tournamentTitle", some (.str tournamentTitle)),
      ("categoryTitle", some (nullable categoryTitle)),
      ("rank", some (.num rank)),
      ("totalParticipants", some (.num totalParticipants)),
      ("timestamp", some (.num timestamp))]
  | .won tournamentId userId tournamentTitle categoryTitle rank prize timestamp =>
    jsonb [("eventType", some (.str e.eventType)),
      ("tournamentId", some (.str tournamentId.text)),
      ("userId", some (.str userId.text)),
      ("tournamentTitle", some (.str tournamentTitle)),
      ("categoryTitle", some (nullable categoryTitle)),
      ("rank", some (.num rank)),
      -- `tournament.prize ?? undefined`
      ("prize", prize.map .str),
      ("timestamp", some (.num timestamp))]

def idempotencyKey : Scheduled → String
  | .joined tournamentId userId _ _ _ =>
    "tournament:joined:" ++ tournamentId.text ++ ":" ++ userId.text
  | .withdrawn tournamentId userId _ =>
    "tournament:withdrawn:" ++ tournamentId.text ++ ":" ++ userId.text
  | .startingSoon tournamentId userId _ _ _ _ =>
    "tournament:starting_soon:" ++ tournamentId.text ++ ":" ++ userId.text
  | .completed tournamentId userId _ _ _ _ _ =>
    "tournament:completed:" ++ tournamentId.text ++ ":" ++ userId.text
  | .won tournamentId userId _ _ rank _ _ =>
    tournamentId.text ++ ":" ++ userId.text ++ ":" ++ toString rank

/-- The values `insertRows` inserts; the id and `next_attempt_at` have database defaults. -/
def event (e : Scheduled) (eventId : String) (nowIso nextAttemptAt : Int)
    (correlationId : Option String) : NewEvent :=
  { eventId, aggregateType := "tournament", eventType := e.eventType, payload := e.payload
    createdAt := nowIso, nextAttemptAt, idempotencyKey := some e.idempotencyKey, correlationId }

end Scheduled

/-! ## What the processor reads -/

inductive JsDate where
  | instant (ms : Int)
  | invalid

def newDate : Option JsonValue → JsDate
  | some (.num t) => .instant t
  | some .null => .instant 0
  | _ => .invalid

/-- `value ?? null`. -/
def orNull : Option JsonValue → Option JsonValue
  | none => some .null
  | some v => some v

/-- The event classes. The casts of `deserializePayload` check nothing, so a field holds whatever
the payload has under its name; `none` is `undefined`. -/
inductive TournamentDomainEvent where
  | joined (tournamentId userId tournamentTitle categoryTitle : Option JsonValue)
      (occurredAt : JsDate)
  | participantWithdrawn (tournamentId userId : Option JsonValue) (withdrawnAt : JsDate)
  | startingSoon (userId tournamentId tournamentTitle categoryTitle startsAt : Option JsonValue)
      (timestamp : JsDate)
  | completed (userId tournamentId tournamentTitle categoryTitle rank
      totalParticipants : Option JsonValue) (timestamp : JsDate)
  | won (userId tournamentId tournamentTitle categoryTitle rank prize : Option JsonValue)
      (timestamp : JsDate)

def deserializePayload (event : OutboxRow) : Option TournamentDomainEvent :=
  let p := event.field
  if event.eventType = "tournament.joined" then
    some (.joined (p "tournamentId") (p "userId") (p "tournamentTitle")
      (orNull (p "categoryTitle")) (newDate (p "timestamp")))
  else if event.eventType = "tournament.participant.withdrawn" then
    some (.participantWithdrawn (p "tournamentId") (p "userId") (newDate (p "timestamp")))
  else if event.eventType = "tournament.starting_soon" then
    some (.startingSoon (p "userId") (p "tournamentId") (p "tournamentTitle")
      (orNull (p "categoryTitle")) (p "startsAt") (newDate (p "timestamp")))
  else if event.eventType = "tournament.completed" then
    some (.completed (p "userId") (p "tournamentId") (p "tournamentTitle")
      (orNull (p "categoryTitle")) (p "rank") (p "totalParticipants") (newDate (p "timestamp")))
  else if event.eventType = "tournament.won" then
    some (.won (p "userId") (p "tournamentId") (p "tournamentTitle")
      (orNull (p "categoryTitle")) (p "rank") (p "prize") (newDate (p "timestamp")))
  else
    none

/-! ## The round trip -/

def Scheduled.expected : Scheduled → TournamentDomainEvent
  | .joined tournamentId userId tournamentTitle categoryTitle timestamp =>
    .joined (some (.str tournamentId.text)) (some (.str userId.text))
      (some (.str tournamentTitle)) (some (nullable categoryTitle)) (.instant timestamp)
  | .withdrawn tournamentId userId timestamp =>
    .participantWithdrawn (some (.str tournamentId.text)) (some (.str userId.text))
      (.instant timestamp)
  | .startingSoon tournamentId userId tournamentTitle categoryTitle startAt timestamp =>
    .startingSoon (some (.str userId.text)) (some (.str tournamentId.text))
      (some (.str tournamentTitle)) (some (nullable categoryTitle)) (some (.num startAt))
      (.instant timestamp)
  | .completed tournamentId userId tournamentTitle categoryTitle rank totalParticipants timestamp =>
    .completed (some (.str userId.text)) (some (.str tournamentId.text))
      (some (.str tournamentTitle)) (some (nullable categoryTitle)) (some (.num rank))
      (some (.num totalParticipants)) (.instant timestamp)
  | .won tournamentId userId tournamentTitle categoryTitle rank prize timestamp =>
    .won (some (.str userId.text)) (some (.str tournamentId.text)) (some (.str tournamentTitle))
      (some (nullable categoryTitle)) (some (.num rank)) (prize.map .str) (.instant timestamp)

theorem deserializePayload_startingSoon (tournamentId userId : Uuid) (tournamentTitle : String)
    (categoryTitle : Option String) (startAt timestamp : Int) (eventId : String)
    (nowIso nextAttemptAt : Int) (correlationId : Option String) :
    deserializePayload ((Scheduled.startingSoon tournamentId userId tournamentTitle categoryTitle
        startAt timestamp).event eventId nowIso nextAttemptAt correlationId).row =
      some (.startingSoon (some (.str userId.text)) (some (.str tournamentId.text))
        (some (.str tournamentTitle)) (some (nullable categoryTitle)) none
        (.instant timestamp)) := by
  cases categoryTitle <;> rfl

/-- The four kinds whose names agree come back whole; the fifth comes back with `startsAt`
undefined. -/
theorem roundTrips_iff (e : Scheduled) (eventId : String) (nowIso nextAttemptAt : Int)
    (correlationId : Option String) :
    deserializePayload (e.event eventId nowIso nextAttemptAt correlationId).row =
        some e.expected ↔ e.eventType ≠ "tournament.starting_soon" := by
  cases e with
  | joined tournamentId userId tournamentTitle categoryTitle timestamp =>
    refine iff_of_true ?_ (by simp [Scheduled.eventType])
    -- `categoryTitle ?? null` of a value that is there
    cases categoryTitle <;> rfl
  | withdrawn tournamentId userId timestamp =>
    exact iff_of_true rfl (by simp [Scheduled.eventType])
  | startingSoon tournamentId userId tournamentTitle categoryTitle startAt timestamp =>
    refine iff_of_false ?_ (by simp [Scheduled.eventType])
    intro h
    rw [deserializePayload_startingSoon] at h
    simp [Scheduled.expected] at h
  | completed tournamentId userId tournamentTitle categoryTitle rank totalParticipants timestamp =>
    refine iff_of_true ?_ (by simp [Scheduled.eventType])
    cases categoryTitle <;> rfl
  | won tournamentId userId tournamentTitle categoryTitle rank prize timestamp =>
    refine iff_of_true ?_ (by simp [Scheduled.eventType])
    -- a tournament without a prize has no such member in its payload
    cases categoryTitle <;> cases prize <;> rfl

/-- The start of this tournament is in the stored row, and the decoded event has no start. -/
theorem startingSoon_loses_start :
    let row := ((Scheduled.startingSoon 1 2 "Cup" none 1767225600000 1767222000000).event
      "event-1" 1767222000000 1767222000000 none).row
    row.field "startedAt" = some (.num 1767225600000) ∧
      deserializePayload row = some (.startingSoon (some (.str (2 : Uuid).text))
        (some (.str (1 : Uuid).text)) (some (.str "Cup")) (some .null) none
        (.instant 1767222000000)) ∧
      deserializePayload row ≠ some (Scheduled.expected
        (.startingSoon 1 2 "Cup" none 1767225600000 1767222000000)) := by
  refine ⟨rfl, rfl, ?_⟩
  intro h
  rw [deserializePayload_startingSoon] at h
  simp [Scheduled.expected] at h

end QuizBackend.Tournament
