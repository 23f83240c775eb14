import QuizBackend.Lib.Table
import Mathlib.Data.List.Sort
import Mathlib.Data.List.Infix

/-!
# The outbox table

Every module writes its domain events into one table, `outbox_events`, in the transaction of the
change they announce; nine background processors poll the table and deliver them. A row carries
the aggregate it belongs to, and that column is all that partitions the table among the
processors.

Here are the row, its insertion under the partial unique index on `idempotency_key`, the errors a
delivery can end in, and the polling query all processors share: the due rows that satisfy a
predicate, oldest first, up to a limit. Rows created at the same instant are taken in physical
order.
-/

namespace QuizBackend.Outbox

open Lib

/-- A member of a JSON object; `raw` is the text of a nested value. -/
inductive JsonValue where
  | null
  | bool (b : Bool)
  | num (n : Int)
  | str (s : String)
  | raw (text : String)
  deriving DecidableEq

structure OutboxRow where
  eventId : String
  aggregateType : String
  eventType : String
  payload : List (String × JsonValue)
  createdAt : Int
  processedAt : Option Int
  attemptCount : Nat
  lastAttemptAt : Option Int
  nextAttemptAt : Int
  lastError : Option String
  idempotencyKey : Option String
  failedAt : Option Int
  dlqReason : Option String
  correlationId : Option String
  deriving DecidableEq

abbrev OutboxEvents := Table String OutboxRow (·.eventId)

/-- `payload[key]`; `none` is JavaScript's `undefined`. -/
def OutboxRow.field (row : OutboxRow) (key : String) : Option JsonValue := row.payload.lookup key

/-- The values of an `INSERT`; the other columns have their defaults. -/
structure NewEvent where
  eventId : String
  aggregateType : String
  eventType : String
  payload : List (String × JsonValue)
  createdAt : Int
  nextAttemptAt : Int
  idempotencyKey : Option String
  correlationId : Option String
  deriving DecidableEq

def NewEvent.row (e : NewEvent) : OutboxRow :=
  { eventId := e.eventId, aggregateType := e.aggregateType, eventType := e.eventType,
    payload := e.payload, createdAt := e.createdAt, processedAt := none, attemptCount := 0,
    lastAttemptAt := none, nextAttemptAt := e.nextAttemptAt, lastError := none,
    idempotencyKey := e.idempotencyKey, failedAt := none, dlqReason := none,
    correlationId := e.correlationId }

/-- The key stands in `uq_outbox_events_idempotency_unprocessed`. -/
def keyTaken (events : OutboxEvents) (key : Option String) : Bool :=
  match key with
  | none => false
  | some k => events.rows.any fun row => row.processedAt.isNone && row.idempotencyKey == some k

/-- `INSERT … ON CONFLICT (idempotency_key) WHERE … DO NOTHING`. A taken `event_id` does not
happen: the database draws it. -/
def insertEvent (events : OutboxEvents) (e : NewEvent) : OutboxEvents :=
  if keyTaken events e.idempotencyKey then events
  else (events.insert? e.row).getD events

/-! ## Errors -/

/-- What a delivery throws: an `Error`, one of its subclasses the processors know, or a value
that is no `Error`, with its `String(…)` and `JSON.stringify(…)` texts. -/
inductive Thrown where
  | error (message : String)
  | idempotencyConflict (message : String)
  | payloadValidation (message : String)
  | reviewPayload (message : String)
  | value (text json : String)
  deriving DecidableEq

def Thrown.message : Thrown → Option String
  | .error m => some m
  | .idempotencyConflict m => some m
  | .payloadValidation m => some m
  | .reviewPayload m => some m
  | .value _ _ => none

/-- `error instanceof Error ? error.message : String(error)`. -/
def Thrown.text : Thrown → String
  | .value text _ => text
  | e => e.message.getD ""

/-- `new Error(captured instanceof Error ? captured.message : JSON.stringify(captured))`. -/
def Thrown.rewrap : Thrown → Thrown
  | .value _ json => .error json
  | e => .error (e.message.getD "")

/-- `message.toLowerCase().includes(needle)` for one of the needles, which are ASCII letters. -/
def mentions (message : String) (needles : List String) : Bool :=
  needles.any fun needle => needle.toList <:+: message.toList.map Char.toLower

abbrev Delivery := Except Thrown Unit

/-! ## The polling query -/

def poll (events : OutboxEvents) (p : OutboxRow → Bool) (n : Nat) : List OutboxRow :=
  ((events.rows.filter p).insertionSort fun a b => a.createdAt ≤ b.createdAt).take n

variable {p : OutboxRow → Bool}

theorem mem_of_mem_poll {events : OutboxEvents} {n : Nat} {row : OutboxRow}
    (h : row ∈ poll events p n) : row ∈ events.rows ∧ p row = true :=
  List.mem_filter.mp ((List.mem_insertionSort _).mp (List.mem_of_mem_take h))

theorem nodup_poll (events : OutboxEvents) (p : OutboxRow → Bool) (n : Nat) :
    ((poll events p n).map (·.eventId)).Nodup := by
  have hsub : (poll events p n).Subperm events.rows :=
    ((List.take_sublist _ _).subperm.trans
      (List.perm_insertionSort _ _).subperm).trans List.filter_sublist.subperm
  obtain ⟨l, hperm, hsubl⟩ := hsub
  exact (hperm.map _).nodup_iff.mp ((hsubl.map _).nodup events.nodup)

def queue (events : OutboxEvents) (p : OutboxRow → Bool) : List OutboxRow :=
  (events.rows.filter p).insertionSort fun a b => a.createdAt ≤ b.createdAt

theorem mem_queue {events : OutboxEvents} {row : OutboxRow} :
    row ∈ queue events p ↔ row ∈ events.rows ∧ p row = true :=
  (List.mem_insertionSort _).trans List.mem_filter

theorem nodup_queue (events : OutboxEvents) (p : OutboxRow → Bool) :
    ((queue events p).map (·.eventId)).Nodup :=
  ((List.perm_insertionSort _ _).map _).nodup_iff.mpr
    ((List.filter_sublist.map _).nodup events.nodup)

theorem sublist_sorted {l l' : List OutboxRow} (h : l.Sublist l') :
    (l.insertionSort fun a b => a.createdAt ≤ b.createdAt).Sublist
      (l'.insertionSort fun a b => a.createdAt ≤ b.createdAt) := by
  have : IsTrans OutboxRow fun a b => a.createdAt ≤ b.createdAt := ⟨fun _ _ _ => le_trans⟩
  have : Std.Total fun a b : OutboxRow => a.createdAt ≤ b.createdAt :=
    ⟨fun a b => le_total a.createdAt b.createdAt⟩
  induction h with
  | slnil => exact List.Sublist.refl _
  | cons row _ ih => exact ih.trans (List.sublist_orderedInsert row _)
  | cons_cons row _ ih =>
    exact List.Sublist.orderedInsert_sublist row ih (List.pairwise_insertionSort _ _)

theorem queue_sublist {events events' : OutboxEvents} {g : OutboxRow → OutboxRow}
    (hrows : events'.rows = events.rows.map g) (hcreated : ∀ row, (g row).createdAt = row.createdAt)
    (hp : ∀ row ∈ events.rows, p (g row) = true → p row = true) :
    (queue events' p).Sublist ((queue events p).map g) := by
  have hsub : (events'.rows.filter p).Sublist ((events.rows.filter p).map g) := by
    rw [hrows, List.filter_map]
    refine List.Sublist.map g ?_
    have hfilter : events.rows.filter (p ∘ g) = (events.rows.filter p).filter (p ∘ g) := by
      rw [List.filter_filter]
      refine List.filter_congr fun row hrow => ?_
      cases hg : (p ∘ g) row with
      | false => rfl
      | true => rw [hp row hrow hg, Bool.and_true]
    rw [hfilter]
    exact List.filter_sublist
  have hsort := List.map_insertionSort (fun a b : OutboxRow => a.createdAt ≤ b.createdAt)
    (fun a b : OutboxRow => a.createdAt ≤ b.createdAt) g (events.rows.filter p)
    fun a _ b _ => by rw [hcreated, hcreated]
  rw [queue, queue, hsort]
  exact sublist_sorted hsub

end QuizBackend.Outbox
