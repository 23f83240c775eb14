import QuizBackend.Outbox.Isolation

/-!
# The life of an outbox row

`BaseOutboxProcessor.runProcessPendingEvents` is one pass over a batch: the due rows are
dispatched in chunks of ten, a row whose dispatch succeeded (or found its work done already) is
marked processed from inside its chunk, and only when all chunks are through does a second loop
write the failures back, counting a retry or a dead letter for each.

Below, one pass is a function of the table, of the outcome of every dispatch and of the order in
which the calls of a chunk come to their `UPDATE`; a state of the system is the table with the log
of all dispatches. Above it stands the life of a single row, `rowStep`: a row is dispatched only
while it is due, and each dispatch writes it back once. `exec_row` connects the two: what a
sequence of passes makes of a row is what its own dispatches make of it, one after another. All
that is said about a row is then proved of `rowStep`.
-/

namespace QuizBackend.Outbox

open Lib BaseOutboxProcessor Table

/-! ## One pass -/

/-- `runWithConcurrency`: chunks of `limit` items, one after the other. `all` is the `Promise.all`
of one chunk, on the state its calls share; the fuel is the number of items. -/
def runWithConcurrency {σ T R : Type} (limit : Nat) (all : σ → List T → σ × List R) :
    Nat → σ → List T → σ × List R
  | 0, s, _ => (s, [])
  | _ + 1, s, [] => (s, [])
  | fuel + 1, s, item :: items =>
    let chunk := all s ((item :: items).take limit)
    let rest := runWithConcurrency limit all fuel chunk.1 ((item :: items).drop limit)
    (rest.1, chunk.2 ++ rest.2)

/-- What the callback of `runWithConcurrency` answers: `ok` with `processed`, `ok` with
`idempotencyConflict`, or not `ok` with the error. -/
inductive DispatchResult where
  | processed
  | idempotencyConflict
  | failed (error : Thrown)

open DispatchResult

def dispatchResult (conflict : Thrown → Bool) : Delivery → DispatchResult
  | .ok () => .processed
  | .error e => if conflict e then .idempotencyConflict else .failed e

def DispatchResult.ok : DispatchResult → Bool
  | .failed _ => false
  | _ => true

/-- A call of `dispatch`: the row as it was selected, `nowIso` of the pass, the outcome. -/
structure Dispatch where
  row : OutboxRow
  at_ : Int
  result : Delivery

/-- A pass: `nowIso`, the outcome of each dispatch, and the order in which the rows of a chunk
come to their write. -/
structure Pass where
  now : Int
  outcome : OutboxRow → Delivery
  order : List OutboxRow → List OutboxRow
  perm : ∀ chunk, (order chunk).Perm chunk

def Pass.dispatch (p : Pass) (row : OutboxRow) : Dispatch := ⟨row, p.now, p.outcome row⟩

def Pass.result (p : Pass) (conflict : Thrown → Bool) (row : OutboxRow) : DispatchResult :=
  dispatchResult conflict (p.outcome row)

def markProcessed (events : OutboxEvents) (rows : List OutboxRow) (now : Int) : OutboxEvents :=
  events.modifyEach rows (·.eventId) (fun _ => unlessProcessed (setProcessed now))
    fun _ => (keepsIdentity_unlessProcessed (keepsIdentity_setProcessed now)).eventId

/-- One chunk: its rows are dispatched in their order, and those that come out `ok` are marked in
the order they come. -/
def Pass.dispatchChunk (p : Pass) (conflict : Thrown → Bool) (s : OutboxEvents × List Dispatch)
    (chunk : List OutboxRow) : (OutboxEvents × List Dispatch) × List DispatchResult :=
  ((markProcessed s.1 ((p.order chunk).filter fun row => (p.result conflict row).ok) p.now,
    s.2 ++ chunk.map p.dispatch), chunk.map (p.result conflict))

inductive FailureOutcome where
  | retried | dlq
  deriving DecidableEq

/-- The answer of `handleFailure`: `isDlq ? 'dlq' : 'retried'`. -/
def BaseOutboxProcessor.failureOutcome (b : BaseOutboxProcessor) (row : OutboxRow) (e : Thrown) :
    FailureOutcome :=
  if isDeterministicFailure e || row.attemptCount + 1 > b.maxRetries then .dlq else .retried

structure Counters where
  processed : Nat
  failed : Nat
  retried : Nat
  movedToDlq : Nat
  idempotencyConflicts : Nat
  scanned : Nat

section

variable (b : BaseOutboxProcessor)

theorem BaseOutboxProcessor.handleFailure_keepsIdentity
    (snapshot : OutboxRow) (e : Thrown) (now : Int) :
    KeepsIdentity (b.handleFailure snapshot e now) :=
  b.keepsIdentity (fun _ => false) snapshot now (.error e)

def BaseOutboxProcessor.settle (now : Int)
    (acc : OutboxEvents × Counters) (x : OutboxRow × DispatchResult) : OutboxEvents × Counters :=
  let (events, c) := acc
  match x.2 with
  | .idempotencyConflict =>
    (events, { c with processed := c.processed + 1
                      idempotencyConflicts := c.idempotencyConflicts + 1 })
  | .processed => (events, { c with processed := c.processed + 1 })
  | .failed e =>
    (events.modify x.1.eventId (b.handleFailure x.1 e now)
        (b.handleFailure_keepsIdentity x.1 e now).eventId,
      match b.failureOutcome x.1 e with
      | .retried => { c with failed := c.failed + 1, retried := c.retried + 1 }
      | .dlq => { c with failed := c.failed + 1, movedToDlq := c.movedToDlq + 1 })

def BaseOutboxProcessor.batch (events : OutboxEvents) (now : Int) :
    List OutboxRow := poll events (fun row => b.buildPendingWhere now row) b.batchSize

/-- `runProcessPendingEvents`, with the calls of `dispatch` it makes. -/
def BaseOutboxProcessor.runProcessPendingEvents
    (conflict : Thrown → Bool) (events : OutboxEvents) (p : Pass) :
    OutboxEvents × List Dispatch × Counters :=
  let rows := b.batch events p.now
  let ((marked, log), results) :=
    runWithConcurrency 10 (p.dispatchChunk conflict) rows.length (events, []) rows
  let (written, counters) :=
    (rows.zip results).foldl (b.settle p.now) (marked, ⟨0, 0, 0, 0, 0, rows.length⟩)
  (written, log, counters)

end

/-! ### The chunks -/

variable {rows : List OutboxRow} {row row' row₀ : OutboxRow} {d : Dispatch} {ds : List Dispatch}

section Chunks

variable (p : Pass) (conflict : Thrown → Bool)

/-- All chunks together: every row of the batch is dispatched once, in the order of the batch;
the rows that come out `ok` are marked, in some order; the results stand in the batch's order. -/
theorem Pass.runWithConcurrency_dispatchChunk {fuel : Nat} (s : OutboxEvents × List Dispatch)
    (hfuel : rows.length ≤ fuel) :
    ∃ done, done.Perm (rows.filter fun row => (p.result conflict row).ok) ∧
      runWithConcurrency 10 (p.dispatchChunk conflict) fuel s rows
        = ((markProcessed s.1 done p.now, s.2 ++ rows.map p.dispatch),
            rows.map (p.result conflict)) := by
  induction fuel generalizing s rows with
  | zero =>
    have hnil : rows = [] := List.eq_nil_of_length_eq_zero (Nat.le_zero.mp hfuel)
    subst hnil
    exact ⟨[], .nil, by simp [runWithConcurrency, markProcessed, modifyEach]⟩
  | succ fuel ih =>
    cases rows with
    | nil => exact ⟨[], .nil, by simp [runWithConcurrency, markProcessed, modifyEach]⟩
    | cons row rows =>
      -- the rest after the first chunk is shorter, so the fuel is enough for it
      have hrest : ((row :: rows).drop 10).length ≤ fuel := by
        simp only [List.length_drop, List.length_cons] at hfuel ⊢
        omega
      obtain ⟨done, hdone, heq⟩ :=
        ih (p.dispatchChunk conflict s ((row :: rows).take 10)).1 hrest
      refine ⟨((p.order ((row :: rows).take 10)).filter
        fun row => (p.result conflict row).ok) ++ done, ?_, ?_⟩
      · have hchunk := ((p.perm ((row :: rows).take 10)).filter
          fun row => (p.result conflict row).ok).append hdone
        rwa [← List.filter_append, List.take_append_drop] at hchunk
      · simp only [runWithConcurrency, heq]
        simp only [Pass.dispatchChunk, markProcessed, modifyEach_append, List.append_assoc,
          ← List.map_append, List.take_append_drop]

end Chunks

/-! ### The second loop -/

section SecondLoop

variable (b : BaseOutboxProcessor) (p : Pass) (conflict : Thrown → Bool)

def Pass.failures (rows : List OutboxRow) : List (OutboxRow × Thrown) :=
  rows.filterMap fun row =>
    match p.result conflict row with
    | .failed e => some (row, e)
    | _ => none

def BaseOutboxProcessor.writeFailures (events : OutboxEvents)
    (failures : List (OutboxRow × Thrown)) (now : Int) : OutboxEvents :=
  events.modifyEach failures (·.1.eventId) (fun x => b.handleFailure x.1 x.2 now)
    fun x => (b.handleFailure_keepsIdentity x.1 x.2 now).eventId

structure Counters.Agree (c : Counters) (n : Nat) : Prop where
  seen : c.processed + c.failed = n
  failed : c.failed = c.retried + c.movedToDlq
  conflicts : c.idempotencyConflicts ≤ c.processed

theorem BaseOutboxProcessor.settle_agree {acc : OutboxEvents × Counters} {n : Nat}
    (h : acc.2.Agree n) (x : OutboxRow × DispatchResult) :
    (b.settle p.now acc x).2.Agree (n + 1) ∧
      (b.settle p.now acc x).2.scanned = acc.2.scanned := by
  obtain ⟨events, c⟩ := acc
  obtain ⟨row, result⟩ := x
  have hseen : c.processed + c.failed = n := h.seen
  have hfailed : c.failed = c.retried + c.movedToDlq := h.failed
  have hconf : c.idempotencyConflicts ≤ c.processed := h.conflicts
  cases result with
  | idempotencyConflict =>
    exact ⟨⟨by simp [settle]; omega, hfailed, Nat.succ_le_succ hconf⟩, rfl⟩
  | processed =>
    exact ⟨⟨by simp [settle]; omega, hfailed, Nat.le_succ_of_le hconf⟩, rfl⟩
  | failed e =>
    simp only [settle]
    cases b.failureOutcome row e with
    | retried => exact ⟨⟨by simp [← hseen, Nat.add_assoc], by simp; omega, hconf⟩, rfl⟩
    | dlq => exact ⟨⟨by simp [← hseen, Nat.add_assoc], by simp [hfailed, Nat.add_assoc], hconf⟩, rfl⟩

theorem BaseOutboxProcessor.foldl_settle_agree (xs : List (OutboxRow × DispatchResult))
    (acc : OutboxEvents × Counters) {n : Nat} (h : acc.2.Agree n) :
    (xs.foldl (b.settle p.now) acc).2.Agree (n + xs.length) ∧
      (xs.foldl (b.settle p.now) acc).2.scanned = acc.2.scanned := by
  induction xs generalizing acc n with
  | nil => exact ⟨h, rfl⟩
  | cons x xs ih =>
    obtain ⟨hagree, hscanned⟩ := b.settle_agree p h x
    obtain ⟨hrest, hrestScanned⟩ := ih _ hagree
    refine ⟨?_, hrestScanned.trans hscanned⟩
    simpa [Nat.add_assoc, Nat.add_comm 1] using hrest

theorem BaseOutboxProcessor.foldl_settle_events (rows : List OutboxRow)
    (acc : OutboxEvents × Counters) :
    ((rows.zip (rows.map (p.result conflict))).foldl (b.settle p.now) acc).1
      = b.writeFailures acc.1 (p.failures conflict rows) p.now := by
  induction rows generalizing acc with
  | nil => rfl
  | cons row rows ih =>
    simp only [List.map_cons, List.zip_cons_cons, List.foldl_cons, ih, Pass.failures,
      List.filterMap_cons]
    cases hres : p.result conflict row <;>
      simp [settle, writeFailures, modifyEach]

end SecondLoop

/-! ### What a pass does -/

section OnePass

variable {b : BaseOutboxProcessor} {conflict : Thrown → Bool} {events : OutboxEvents} {p : Pass}

theorem runProcessPendingEvents_eq (b : BaseOutboxProcessor) (conflict : Thrown → Bool)
    (events : OutboxEvents) (p : Pass) :
    ∃ done, done.Perm ((b.batch events p.now).filter fun row => (p.result conflict row).ok) ∧
      (b.runProcessPendingEvents conflict events p).1
        = b.writeFailures (markProcessed events done p.now)
            (p.failures conflict (b.batch events p.now)) p.now ∧
      (b.runProcessPendingEvents conflict events p).2.1
        = (b.batch events p.now).map p.dispatch := by
  obtain ⟨done, hperm, hrun⟩ := p.runWithConcurrency_dispatchChunk conflict (events, [])
    (Nat.le_refl (b.batch events p.now).length)
  refine ⟨done, hperm, ?_, ?_⟩
  · simp only [runProcessPendingEvents, hrun, b.foldl_settle_events p conflict]
  · simp only [runProcessPendingEvents, hrun, List.nil_append]

theorem runProcessPendingEvents_log :
    (b.runProcessPendingEvents conflict events p).2.1 = (b.batch events p.now).map p.dispatch := by
  obtain ⟨_, _, _, hlog⟩ := runProcessPendingEvents_eq b conflict events p
  exact hlog

theorem mem_failures {x : OutboxRow × Thrown} :
    x ∈ p.failures conflict rows ↔ x.1 ∈ rows ∧ p.result conflict x.1 = .failed x.2 := by
  simp only [Pass.failures, List.mem_filterMap]
  constructor
  · rintro ⟨row, hrow, hx⟩
    cases hres : p.result conflict row with
    | processed | idempotencyConflict => simp [hres] at hx
    | failed e =>
      simp only [hres, Option.some.injEq] at hx
      exact hx ▸ ⟨hrow, hres⟩
  · rintro ⟨hrow, hres⟩
    exact ⟨x.1, hrow, by simp [hres]⟩

theorem runProcessPendingEvents_other {id : String}
    (h : ∀ row ∈ b.batch events p.now, row.eventId ≠ id) :
    (b.runProcessPendingEvents conflict events p).1.find? id = events.find? id := by
  obtain ⟨done, hperm, hevents, -⟩ := runProcessPendingEvents_eq b conflict events p
  rw [hevents, writeFailures, find?_modifyEach_of_forall_ne,
    markProcessed, find?_modifyEach_of_forall_ne]
  · intro row hrow
    exact h row (List.mem_filter.mp (hperm.mem_iff.mp hrow)).1
  · intro x hx
    exact h x.1 (mem_failures.mp hx).1

theorem map_eventId_failures (rows : List OutboxRow) :
    (p.failures conflict rows).map (·.1.eventId)
      = (rows.filter fun row => !(p.result conflict row).ok).map (·.eventId) := by
  induction rows with
  | nil => rfl
  | cons row rows ih =>
    simp only [Pass.failures] at ih ⊢
    cases hres : p.result conflict row <;> simp [hres, ok, ih]

theorem nodup_batch : ((b.batch events p.now).map (·.eventId)).Nodup :=
  nodup_poll events (fun row => b.buildPendingWhere p.now row) b.batchSize

theorem nodup_filter_batch (q : OutboxRow → Bool) :
    (((b.batch events p.now).filter q).map (·.eventId)).Nodup :=
  (List.filter_sublist.map _).nodup nodup_batch

section

variable (h : row ∈ b.batch events p.now)
include h

theorem eq_of_mem_batch (h' : row' ∈ b.batch events p.now)
    (he : row.eventId = row'.eventId) : row = row' :=
  eq_of_key_eq (mem_of_mem_poll h).1 (mem_of_mem_poll h').1 he

theorem find?_of_mem_batch :
    events.find? row.eventId = some row := find?_of_mem (mem_of_mem_poll h).1

theorem runProcessPendingEvents_ok (hok : (p.result conflict row).ok = true) :
    (b.runProcessPendingEvents conflict events p).1.find? row.eventId
      = some (unlessProcessed (setProcessed p.now) row) := by
  obtain ⟨done, hperm, hevents, -⟩ := runProcessPendingEvents_eq b conflict events p
  have hmem : row ∈ done := hperm.mem_iff.mpr (List.mem_filter.mpr ⟨h, hok⟩)
  have hnodup : (done.map (·.eventId)).Nodup :=
    (hperm.map _).nodup_iff.mpr (nodup_filter_batch _)
  rw [hevents, writeFailures, find?_modifyEach_of_forall_ne,
    markProcessed, find?_modifyEach_of_mem hnodup hmem, find?_of_mem_batch h,
    Option.map_some]
  intro x hx he
  obtain ⟨hbatch, hres⟩ := mem_failures.mp hx
  rw [eq_of_mem_batch hbatch h he] at hres
  rw [hres] at hok
  cases hok

end

theorem runProcessPendingEvents_failed {e : Thrown} (h : row ∈ b.batch events p.now)
    (hres : p.result conflict row = .failed e) :
    (b.runProcessPendingEvents conflict events p).1.find? row.eventId
      = some (b.handleFailure row e p.now row) := by
  obtain ⟨done, hperm, hevents, -⟩ := runProcessPendingEvents_eq b conflict events p
  have hmem : (row, e) ∈ p.failures conflict (b.batch events p.now) := mem_failures.mpr ⟨h, hres⟩
  have hnodup : ((p.failures conflict (b.batch events p.now)).map (·.1.eventId)).Nodup := by
    rw [map_eventId_failures]
    exact nodup_filter_batch _
  have hother : ∀ r ∈ done, r.eventId ≠ row.eventId := by
    intro r hr he
    obtain ⟨hbatch, hok⟩ := List.mem_filter.mp (hperm.mem_iff.mp hr)
    rw [eq_of_mem_batch hbatch h he, hres] at hok
    cases hok
  have hmarked : (markProcessed events done p.now).find? row.eventId = some row := by
    rw [markProcessed, find?_modifyEach_of_forall_ne hother, find?_of_mem_batch h]
  rw [hevents, writeFailures,
    find?_modifyEach_of_mem (k := fun x : OutboxRow × Thrown => x.1.eventId) hnodup hmem,
    hmarked, Option.map_some]

theorem runProcessPendingEvents_self (h : row ∈ b.batch events p.now) :
    (b.runProcessPendingEvents conflict events p).1.find? row.eventId
      = some (b.writeBack conflict row p.now (p.outcome row) row) := by
  cases hout : p.outcome row with
  | ok u =>
    exact runProcessPendingEvents_ok h (by simp [Pass.result, hout, dispatchResult,
      ok])
  | error e =>
    simp only [writeBack]
    split
    · next hconf =>
      exact runProcessPendingEvents_ok h (by simp [Pass.result, hout, dispatchResult, hconf,
        ok])
    · next hconf =>
      exact runProcessPendingEvents_failed h (by simp [Pass.result, hout, dispatchResult, hconf])

theorem runProcessPendingEvents_counters (b : BaseOutboxProcessor) (conflict : Thrown → Bool)
    (events : OutboxEvents) (p : Pass) :
    (b.runProcessPendingEvents conflict events p).2.2.scanned = (b.batch events p.now).length ∧
      (b.runProcessPendingEvents conflict events p).2.2.Agree
        (b.batch events p.now).length := by
  obtain ⟨done, -, hrun⟩ := p.runWithConcurrency_dispatchChunk conflict (events, [])
    (Nat.le_refl (b.batch events p.now).length)
  obtain ⟨hagree, hscanned⟩ := b.foldl_settle_agree p
    ((b.batch events p.now).zip ((b.batch events p.now).map (p.result conflict)))
    (markProcessed events done p.now, ⟨0, 0, 0, 0, 0, (b.batch events p.now).length⟩)
    (n := 0) ⟨rfl, rfl, Nat.le_refl 0⟩
  simp only [runProcessPendingEvents, hrun]
  exact ⟨hscanned, by simpa using hagree⟩

end OnePass

/-! ## Passes one after another -/

structure Queue where
  events : OutboxEvents
  clock : Int
  log : List Dispatch
  reports : List Counters

open Queue

def Queue.start (events : OutboxEvents) (clock : Int) : Queue := ⟨events, clock, [], []⟩

def Queue.step (b : BaseOutboxProcessor) (conflict : Thrown → Bool) (q : Queue) (p : Pass) :
    Option Queue :=
  if q.clock ≤ p.now then
    let (events, log, counters) := b.runProcessPendingEvents conflict q.events p
    some ⟨events, p.now, q.log ++ log, q.reports ++ [counters]⟩
  else none

def Queue.dispatchesOf (q : Queue) (id : String) : List Dispatch :=
  q.log.filter fun d => d.row.eventId = id

/-! ## The life of a row -/

def rowStep (b : BaseOutboxProcessor) (conflict : Thrown → Bool) (row : OutboxRow)
    (d : Dispatch) : Option OutboxRow :=
  if d.row = row ∧ b.buildPendingWhere d.at_ row = true then
    some (b.writeBack conflict row d.at_ d.result row)
  else none

variable {q : Queue}

section Connection

variable {b : BaseOutboxProcessor} {conflict : Thrown → Bool}

theorem filter_eventId_eq (hn : (rows.map (·.eventId)).Nodup) (h : row ∈ rows) :
    rows.filter (fun r => r.eventId = row.eventId) = [row] := by
  induction rows with
  | nil => cases h
  | cons r rows ih =>
    obtain ⟨hr, hrows⟩ := List.nodup_cons.mp hn
    rcases List.mem_cons.mp h with rfl | hmem
    · have hrest : rows.filter (fun r => r.eventId = row.eventId) = [] := by
        refine List.filter_eq_nil_iff.mpr ?_
        intro r hmem
        have hne : r.eventId ≠ row.eventId := fun he => hr (List.mem_map.mpr ⟨r, hmem, he⟩)
        simp [hne]
      simp [hrest]
    · have hne : r.eventId ≠ row.eventId := fun he => hr (List.mem_map.mpr ⟨row, hmem, he.symm⟩)
      simp [hne, ih hrows hmem]

theorem filter_log_of_mem {events : OutboxEvents} {p : Pass} (h : row ∈ b.batch events p.now) :
    ((b.batch events p.now).map p.dispatch).filter (fun d => d.row.eventId = row.eventId)
      = [p.dispatch row] := by
  rw [List.filter_map]
  show ((b.batch events p.now).filter fun r => r.eventId = row.eventId).map p.dispatch = _
  rw [filter_eventId_eq nodup_batch h, List.map_singleton]

theorem filter_log_of_not_mem {events : OutboxEvents} {p : Pass} {id : String}
    (h : ∀ row ∈ b.batch events p.now, row.eventId ≠ id) :
    ((b.batch events p.now).map p.dispatch).filter (fun d => d.row.eventId = id) = [] := by
  refine List.filter_eq_nil_iff.mpr ?_
  intro d hd
  obtain ⟨row, hrow, rfl⟩ := List.mem_map.mp hd
  show ¬decide (row.eventId = id) = true
  simp [h row hrow]

theorem Queue.step_eq {q' : Queue} {p : Pass} (h : q.step b conflict p = some q') :
    q.clock ≤ p.now ∧
      q' = ⟨(b.runProcessPendingEvents conflict q.events p).1, p.now,
        q.log ++ (b.batch q.events p.now).map p.dispatch,
        q.reports ++ [(b.runProcessPendingEvents conflict q.events p).2.2]⟩ := by
  unfold step at h
  split at h
  · next hclock =>
    refine ⟨hclock, ?_⟩
    rw [Option.some.injEq] at h
    rw [← h, ← runProcessPendingEvents_log]
  · cases h

/-- **Passes refine the life of each row**: what a sequence of passes makes of a row is what its
own dispatches make of it. -/
theorem exec_row {events : OutboxEvents} {clock : Int} {passes : List Pass}
    (h : exec (step b conflict) (start events clock) passes = some q)
    (hrow : row₀ ∈ events.rows) :
    ∃ row, q.events.find? row₀.eventId = some row ∧
      exec (rowStep b conflict) row₀ (q.dispatchesOf row₀.eventId) = some row := by
  refine exec_invariant (I := fun q => ∃ row, q.events.find? row₀.eventId = some row ∧
      exec (rowStep b conflict) row₀ (q.dispatchesOf row₀.eventId) = some row) ?_ h
    ⟨row₀, find?_of_mem hrow, rfl⟩
  rintro q p q' ⟨row, hfind, hlife⟩ hstep
  obtain ⟨-, rfl⟩ := step_eq hstep
  have hid : row.eventId = row₀.eventId := key_of_find? hfind
  simp only [dispatchesOf, List.filter_append] at hlife ⊢
  by_cases hbatch : row ∈ b.batch q.events p.now
  · -- the pass selects the row: one more dispatch, one more write
    refine ⟨b.writeBack conflict row p.now (p.outcome row) row, ?_, ?_⟩
    · rw [← hid, runProcessPendingEvents_self hbatch]
    · rw [← hid, filter_log_of_mem hbatch, exec_snoc]
      refine ⟨row, hid ▸ hlife, ?_⟩
      exact if_pos ⟨rfl, (mem_of_mem_poll hbatch).2⟩
  · have hother : ∀ r ∈ b.batch q.events p.now, r.eventId ≠ row₀.eventId := by
      intro r hr he
      have hsame := find?_of_mem_batch hr
      rw [he, hfind, Option.some.injEq] at hsame
      exact hbatch (hsame ▸ hr)
    refine ⟨row, ?_, ?_⟩
    · rw [runProcessPendingEvents_other hother, hfind]
    · rw [filter_log_of_not_mem hother, List.append_nil, hlife]

end Connection

/-- `processed_at IS NULL AND failed_at IS NULL`. -/
def OutboxRow.Pending (row : OutboxRow) : Prop := row.processedAt = none ∧ row.failedAt = none

/-- `processed_at IS NOT NULL`. -/
def OutboxRow.Processed (row : OutboxRow) : Prop := row.processedAt ≠ none

/-- `processed_at IS NULL AND failed_at IS NOT NULL`. -/
def OutboxRow.DeadLettered (row : OutboxRow) : Prop := row.processedAt = none ∧ row.failedAt ≠ none

structure OutboxRow.Consistent (row : OutboxRow) : Prop where
  exclusive : row.processedAt ≠ none → row.failedAt = none
  reason : row.failedAt.isSome = row.dlqReason.isSome

def Dispatch.Failed (conflict : Thrown → Bool) (d : Dispatch) : Prop :=
  (dispatchResult conflict d.result).ok = false

instance (conflict : Thrown → Bool) (d : Dispatch) : Decidable (d.Failed conflict) :=
  inferInstanceAs (Decidable (_ = _))

def Dispatch.Deterministic (d : Dispatch) : Prop :=
  ∃ e, d.result = .error e ∧ isDeterministicFailure e = true

/-- A failure that ends the row's life: a deterministic one, or the one that exhausts the
retries, `n` failures having been counted before. -/
def Dispatch.Final (b : BaseOutboxProcessor) (conflict : Thrown → Bool) (d : Dispatch) (n : Nat) :
    Prop :=
  d.Failed conflict ∧ (d.Deterministic ∨ b.maxRetries < n + 1)

section RowLife

variable {b : BaseOutboxProcessor} {conflict : Thrown → Bool}

theorem rowStep_found (h : rowStep b conflict row d = some row') :
    d.row = row ∧ row.aggregateType = b.aggregateType ∧ row.Pending ∧
      row.nextAttemptAt ≤ d.at_ := by
  unfold rowStep at h
  split at h
  · next hdue =>
    obtain ⟨hrow, hdue⟩ := hdue
    simp only [buildPendingWhere, isDue, Bool.and_eq_true, beq_iff_eq,
      Option.isNone_iff_eq_none, decide_eq_true_eq] at hdue
    exact ⟨hrow, hdue.1.1, ⟨hdue.1.2.1.1, hdue.1.2.1.2⟩, hdue.1.2.2⟩
  · cases h

theorem rowStep_cases (h : rowStep b conflict row d = some row') :
    (¬ d.Failed conflict ∧ row' = setProcessed d.at_ row) ∨
    (d.Final b conflict row.attemptCount ∧ ∃ text reason,
      row' = setDlq (row.attemptCount + 1) d.at_ d.at_ text reason row) ∨
    (d.Failed conflict ∧ ¬ d.Final b conflict row.attemptCount ∧ ∃ text,
      row' = setRetry (row.attemptCount + 1) d.at_
        (computeNextAttempt (row.attemptCount + 1) d.at_ b.baseDelaySeconds) text row) := by
  obtain ⟨hrow, -, hpending, -⟩ := rowStep_found h
  have hguard : ∀ f, unlessProcessed f row = f row := fun f => by
    simp [unlessProcessed, hpending.1]
  unfold rowStep at h
  split at h
  · rw [Option.some.injEq] at h
    subst h
    cases hres : d.result with
    | ok u =>
      refine .inl ⟨by simp [Dispatch.Failed, hres, dispatchResult, ok], ?_⟩
      exact hguard _
    | error e =>
      by_cases hconf : conflict e = true
      · refine .inl ⟨by simp [Dispatch.Failed, hres, dispatchResult, hconf, ok], ?_⟩
        simp only [writeBack, hconf, if_true, hguard]
      · have hfailed : d.Failed conflict := by
          simp [Dispatch.Failed, hres, dispatchResult, hconf, ok]
        have hdet : d.Deterministic ↔ isDeterministicFailure e = true := by
          simp [Dispatch.Deterministic, hres]
        rw [show b.writeBack conflict row d.at_ (.error e) row = b.handleFailure row e d.at_ row by
          simp only [writeBack, if_neg hconf], handleFailure,
          hguard]
        by_cases hfinal : (isDeterministicFailure e || decide (row.attemptCount + 1 > b.maxRetries))
            = true
        · refine .inr (.inl ⟨⟨hfailed, ?_⟩, ?_⟩)
          · rw [hdet]
            simpa using hfinal
          · rw [if_pos hfinal]
            exact ⟨_, _, rfl⟩
        · refine .inr (.inr ⟨hfailed, ?_, ?_⟩)
          · rintro ⟨-, hcase⟩
            rw [hdet] at hcase
            exact hfinal (by simpa using hcase)
          · rw [if_neg hfinal]
            exact ⟨_, rfl⟩
  · cases h

/-- The delay after the `k`-th failure, in milliseconds. -/
def BaseOutboxProcessor.delay (b : BaseOutboxProcessor) (k : Nat) : Int :=
  b.baseDelaySeconds * 2 ^ (k - 1) * 1000

theorem BaseOutboxProcessor.delay_nonneg (b : BaseOutboxProcessor) (k : Nat) : 0 ≤ b.delay k := by
  simp [delay]

theorem computeNextAttempt_eq (k : Nat) (now : Int) :
    computeNextAttempt k now b.baseDelaySeconds = now + b.delay k := rfl

def failures (conflict : Thrown → Bool) (ds : List Dispatch) : Nat :=
  ds.countP fun d => d.Failed conflict

/-- What the life of a row so far, the dispatches `ds` from `row₀` on, says about the row. -/
structure RowInv (b : BaseOutboxProcessor) (conflict : Thrown → Bool) (row₀ : OutboxRow)
    (ds : List Dispatch) (row : OutboxRow) : Prop where
  aggregateType : row.aggregateType = row₀.aggregateType
  consistent : row₀.Consistent → row.Consistent
  attempts : row.attemptCount = row₀.attemptCount + failures conflict ds
  pending : row.Pending → ∀ d ∈ ds, d.Failed conflict
  waits : row.Pending → ∀ pre d post, ds = pre ++ d :: post →
    d.at_ + b.delay (row₀.attemptCount + pre.length + 1) ≤ row.nextAttemptAt
  deadLettered : row.DeadLettered ↔ row₀.DeadLettered ∨
    ∃ pre d, pre ++ [d] <+: ds ∧ d.Final b conflict (row₀.attemptCount + pre.length)

theorem rowInv_start (row₀ : OutboxRow) : RowInv b conflict row₀ [] row₀ where
  aggregateType := rfl
  consistent := id
  attempts := rfl
  pending := fun _ d hd => absurd hd List.not_mem_nil
  waits := fun _ pre d post h => absurd h (by simp)
  deadLettered := by simp

theorem RowInv.attempts_of_pending (h : RowInv b conflict row₀ ds row) (hp : row.Pending) :
    row.attemptCount = row₀.attemptCount + ds.length := by
  rw [h.attempts, failures, List.countP_eq_length.mpr]
  intro d hd
  exact decide_eq_true (h.pending hp d hd)

theorem RowInv.snoc (h : RowInv b conflict row₀ ds row)
    (hstep : rowStep b conflict row d = some row') : RowInv b conflict row₀ (ds ++ [d]) row' := by
  obtain ⟨-, -, hp, hdue⟩ := rowStep_found hstep
  have hcount := h.attempts_of_pending hp
  have hcountAll : failures conflict (ds ++ [d])
      = failures conflict ds + if d.Failed conflict then 1 else 0 := by
    simp [failures, List.countP_append, List.countP_singleton]
  -- nothing before this dispatch was final, for the row is still pending
  have hearlier : ¬ (row₀.DeadLettered ∨ ∃ pre d, pre ++ [d] <+: ds ∧
      d.Final b conflict (row₀.attemptCount + pre.length)) :=
    fun hd => (h.deadLettered.mpr hd).2 hp.2
  have hfinal : (row₀.DeadLettered ∨ ∃ pre d', pre ++ [d'] <+: ds ++ [d] ∧
      d'.Final b conflict (row₀.attemptCount + pre.length)) ↔
        d.Final b conflict row.attemptCount := by
    rw [hcount]
    constructor
    · rintro (hd | ⟨pre, d', hpre, hd'⟩)
      · exact absurd (.inl hd) hearlier
      · rcases List.prefix_concat_iff.mp hpre with heq | hold
        · obtain ⟨rfl, hd⟩ := List.append_inj' heq rfl
          obtain rfl : d' = d := by simpa using hd
          exact hd'
        · exact absurd (.inr ⟨pre, d', hold, hd'⟩) hearlier
    · intro hd
      exact .inr ⟨ds, d, List.prefix_refl _, hd⟩
  rcases rowStep_cases hstep with ⟨hok, rfl⟩ | ⟨hlast, text, reason, rfl⟩ | ⟨hfail, hnot, text, rfl⟩
  · -- processed
    refine ⟨h.aggregateType, fun hc => ?_, ?_, ?_, ?_, ?_⟩
    · exact ⟨fun _ => hp.2, (h.consistent hc).reason⟩
    · rw [hcountAll, if_neg hok]
      exact h.attempts
    · intro hp'
      exact absurd hp'.1 (by simp [setProcessed])
    · intro hp'
      exact absurd hp'.1 (by simp [setProcessed])
    · rw [hfinal]
      exact ⟨fun hd => absurd hd.1 (by simp [setProcessed]), fun hd => absurd hd.1 hok⟩
  · -- dead-lettered
    refine ⟨h.aggregateType, fun hc => ?_, ?_, ?_, ?_, ?_⟩
    · exact ⟨fun hne => absurd hp.1 hne, rfl⟩
    · rw [hcountAll, if_pos hlast.1, ← Nat.add_assoc, ← h.attempts]
      rfl
    · intro hp'
      exact absurd hp'.2 (by simp [setDlq])
    · intro hp'
      exact absurd hp'.2 (by simp [setDlq])
    · rw [hfinal]
      exact ⟨fun _ => hlast, fun _ => ⟨hp.1, by simp [setDlq]⟩⟩
  · -- to be tried again
    refine ⟨h.aggregateType, fun hc => ?_, ?_, ?_, ?_, ?_⟩
    · exact ⟨(h.consistent hc).exclusive, (h.consistent hc).reason⟩
    · rw [hcountAll, if_pos hfail, ← Nat.add_assoc, ← h.attempts]
      rfl
    · intro _ d' hd'
      rcases List.mem_append.mp hd' with hold | hnew
      · exact h.pending hp d' hold
      · rw [List.mem_singleton.mp hnew]
        exact hfail
    · intro _ pre d' post heq
      rcases List.eq_nil_or_concat post with rfl | ⟨post, x, rfl⟩
      · -- this failure: its own delay
        obtain ⟨hpre, hd⟩ := List.append_inj' heq rfl
        obtain rfl : d = d' := by simpa using hd
        rw [← hpre, ← hcount, ← computeNextAttempt_eq]
        exact Int.le_refl _
      · -- an earlier one: the row had waited for it before it was dispatched
        rw [List.concat_eq_append, ← List.cons_append, ← List.append_assoc] at heq
        obtain ⟨hds, -⟩ := List.append_inj' heq rfl
        calc d'.at_ + b.delay (row₀.attemptCount + pre.length + 1)
            ≤ row.nextAttemptAt := h.waits hp pre d' post hds
          _ ≤ d.at_ := hdue
          _ ≤ d.at_ + b.delay (row.attemptCount + 1) :=
            Int.le_add_of_nonneg_right (b.delay_nonneg _)
    · rw [hfinal]
      exact ⟨fun hd => absurd hp.2 hd.2, fun hd => absurd hd hnot⟩

theorem rowInv_of_exec (h : exec (rowStep b conflict) row₀ ds = some row) :
    RowInv b conflict row₀ ds row := by
  induction ds using List.reverseRecOn generalizing row with
  | nil =>
    rw [exec_nil, Option.some.injEq] at h
    exact h ▸ rowInv_start row₀
  | append_singleton ds d ih =>
    obtain ⟨mid, hmid, hstep⟩ := exec_snoc.mp h
    exact (ih hmid).snoc hstep

/-- Where a row is after these dispatches, and what they have counted. -/
structure RowLife (b : BaseOutboxProcessor) (conflict : Thrown → Bool) (row₀ : OutboxRow)
    (ds : List Dispatch) (row : OutboxRow) : Prop where
  status : (row.Pending ∧ ¬ row.Processed ∧ ¬ row.DeadLettered) ∨
    (¬ row.Pending ∧ row.Processed ∧ ¬ row.DeadLettered) ∨
    (¬ row.Pending ∧ ¬ row.Processed ∧ row.DeadLettered)
  consistent : row₀.Consistent → row.Consistent
  /-- Each dispatch found the row pending and due, so none follows once it is settled. -/
  dispatched : ∀ pre (d : Dispatch), pre ++ [d] <+: ds →
    exec (rowStep b conflict) row₀ pre = some d.row ∧ d.row.Pending ∧ d.row.nextAttemptAt ≤ d.at_
  settled : ∀ pre r, pre <+: ds → exec (rowStep b conflict) row₀ pre = some r → ¬ r.Pending →
    ds = pre ∧ row = r
  attempts : row.attemptCount = row₀.attemptCount + failures conflict ds
  /-- The row is dead-lettered by a deterministic failure, or by the dispatch with which the
  failures counted from the beginning exceed the retries. -/
  deadLettered : row.DeadLettered ↔ row₀.DeadLettered ∨
    ∃ pre, ∃ d : Dispatch, pre ++ [d] <+: ds ∧ d.Final b conflict (row₀.attemptCount + pre.length)
  bounded : row₀.attemptCount ≤ b.maxRetries → ∀ pre d, pre ++ [d] <+: ds →
    row₀.attemptCount + pre.length ≤ b.maxRetries
  /-- After the `k`-th failure no dispatch comes before `baseDelaySeconds * 2 ^ (k - 1)` are over,
  and the `next_attempt_at` of the row says so. -/
  backoff : ∀ pre (d : Dispatch) mid (d' : Dispatch), pre ++ d :: (mid ++ [d']) <+: ds →
    d.at_ + b.delay (row₀.attemptCount + pre.length + 1) ≤ d'.row.nextAttemptAt ∧
      d'.row.nextAttemptAt ≤ d'.at_
  nextAttempt : row.Pending → ∀ pre d post, ds = pre ++ d :: post →
    d.at_ + b.delay (row₀.attemptCount + pre.length + 1) ≤ row.nextAttemptAt

theorem OutboxRow.status (row : OutboxRow) :
    (row.Pending ∧ ¬ row.Processed ∧ ¬ row.DeadLettered) ∨
      (¬ row.Pending ∧ row.Processed ∧ ¬ row.DeadLettered) ∨
      (¬ row.Pending ∧ ¬ row.Processed ∧ row.DeadLettered) := by
  unfold OutboxRow.Pending OutboxRow.Processed OutboxRow.DeadLettered
  cases row.processedAt <;> cases row.failedAt <;> simp

theorem eq_of_settled {r : OutboxRow} {pre : List Dispatch}
    (h : exec (rowStep b conflict) row₀ ds = some row) (hpre : pre <+: ds)
    (hr : exec (rowStep b conflict) row₀ pre = some r) (hsettled : ¬ r.Pending) :
    ds = pre ∧ row = r := by
  obtain ⟨post, rfl⟩ := hpre
  cases post with
  | nil =>
    rw [List.append_nil] at h ⊢
    rw [hr, Option.some.injEq] at h
    exact ⟨rfl, h.symm⟩
  | cons d post =>
    rw [exec_append, hr, Option.bind_some, exec_cons] at h
    obtain ⟨r', hstep, -⟩ := Option.bind_eq_some_iff.mp h
    exact absurd (rowStep_found hstep).2.2.1 hsettled

theorem rowLife_of_exec (h : exec (rowStep b conflict) row₀ ds = some row) :
    RowLife b conflict row₀ ds row := by
  have hinv := rowInv_of_exec h
  have hfound : ∀ pre d, pre ++ [d] <+: ds →
      exec (rowStep b conflict) row₀ pre = some d.row ∧ d.row.Pending ∧
        d.row.nextAttemptAt ≤ d.at_ := by
    intro pre d hpre
    obtain ⟨r, hr⟩ := exec_of_prefix h hpre
    obtain ⟨mid, hmid, hstep⟩ := exec_snoc.mp hr
    obtain ⟨hrow, -, hp, hdue⟩ := rowStep_found hstep
    rw [hrow]
    exact ⟨hmid, hp, hdue⟩
  refine ⟨row.status, hinv.consistent, hfound, fun pre r => eq_of_settled h, hinv.attempts,
    hinv.deadLettered, ?_, ?_, hinv.waits⟩
  · intro hle pre d hpre
    obtain ⟨hexec, hp, -⟩ := hfound pre d hpre
    have hpreInv := rowInv_of_exec hexec
    rcases List.eq_nil_or_concat pre with rfl | ⟨before, last, rfl⟩
    · exact hle
    · -- one failure more would have been the last
      by_contra hgt
      rw [List.concat_eq_append] at hpreInv hgt
      have hfinal : last.Final b conflict (row₀.attemptCount + before.length) :=
        ⟨hpreInv.pending hp last (by simp), .inr (by simp at hgt; omega)⟩
      have hdead := hpreInv.deadLettered.mpr (.inr ⟨before, last, List.prefix_refl _, hfinal⟩)
      exact hdead.2 hp.2
  intro pre d mid d' hpre
  have hsnoc : (pre ++ d :: mid) ++ [d'] <+: ds := by simpa using hpre
  obtain ⟨hexec, hp, hdue⟩ := hfound (pre ++ d :: mid) d' hsnoc
  exact ⟨(rowInv_of_exec hexec).waits hp pre d mid rfl, hdue⟩

theorem dispatches_eq_nil (h : exec (rowStep b conflict) row₀ ds = some row)
    (hne : row₀.aggregateType ≠ b.aggregateType) : ds = [] ∧ row = row₀ := by
  cases ds with
  | nil =>
    rw [exec_nil, Option.some.injEq] at h
    exact ⟨rfl, h.symm⟩
  | cons d ds =>
    rw [exec_cons] at h
    obtain ⟨r, hstep, -⟩ := Option.bind_eq_some_iff.mp h
    exact absurd (rowStep_found hstep).2.1 hne

end RowLife

/-! ## Every row, over every sequence of passes -/

/-- What the passes leave behind is about the rows of the table: none is added, and only they
are dispatched. -/
theorem queue_rows {b : BaseOutboxProcessor} {conflict : Thrown → Bool} {events : OutboxEvents}
    {clock : Int} {passes : List Pass}
    (h : exec (step b conflict) (start events clock) passes = some q) :
    (∀ id, q.events.find? id = none ↔ events.find? id = none) ∧
      (∀ d ∈ q.log, ∃ row₀ ∈ events.rows, row₀.eventId = d.row.eventId) ∧
      (∀ c ∈ q.reports, c.Agree c.scanned) := by
  refine exec_invariant (I := fun q : Queue =>
    (∀ id, q.events.find? id = none ↔ events.find? id = none) ∧
      (∀ d ∈ q.log, ∃ row₀ ∈ events.rows, row₀.eventId = d.row.eventId) ∧
      (∀ c ∈ q.reports, c.Agree c.scanned)) ?_ h
    ⟨fun id => Iff.rfl, fun d hd => absurd hd List.not_mem_nil,
      fun c hc => absurd hc List.not_mem_nil⟩
  rintro q p q' ⟨hids, hlog, hreports⟩ hstep
  obtain ⟨-, rfl⟩ := step_eq hstep
  refine ⟨?_, ?_, ?_⟩
  · intro id
    rw [← hids id]
    by_cases hbatch : ∃ row ∈ b.batch q.events p.now, row.eventId = id
    · obtain ⟨row, hrow, rfl⟩ := hbatch
      simp [runProcessPendingEvents_self hrow, find?_of_mem_batch hrow]
    · rw [runProcessPendingEvents_other fun row hrow he => hbatch ⟨row, hrow, he⟩]
  · intro d hd
    rcases List.mem_append.mp hd with hold | hnew
    · exact hlog d hold
    · obtain ⟨row, hrow, rfl⟩ := List.mem_map.mp hnew
      have hsome : events.find? row.eventId ≠ none := by
        rw [Ne, ← hids, find?_of_mem_batch hrow]
        exact Option.some_ne_none row
      obtain ⟨row₀, hrow₀⟩ := Option.ne_none_iff_exists'.mp hsome
      exact ⟨row₀, mem_of_find? hrow₀, key_of_find? hrow₀⟩
  · intro c hc
    rcases List.mem_append.mp hc with hold | hnew
    · exact hreports c hold
    · rw [List.mem_singleton.mp hnew]
      obtain ⟨hscanned, hagree⟩ := runProcessPendingEvents_counters b conflict q.events p
      rw [hscanned]
      exact hagree

/-- **The life of every outbox row**, whatever the table, the outcomes of the dispatches, the
order inside the chunks and the times of the passes: a row of the aggregate lives as `RowLife`
says, a row of another aggregate is neither dispatched nor written, no row comes or goes, and the
counters of every pass add up. -/
theorem outbox_row_life (b : BaseOutboxProcessor) (conflict : Thrown → Bool)
    (events : OutboxEvents) (clock : Int) (passes : List Pass) (q : Queue)
    (h : exec (Queue.step b conflict) (Queue.start events clock) passes = some q) :
    (∀ row₀ ∈ events.rows, ∃ row, q.events.find? row₀.eventId = some row ∧
      RowLife b conflict row₀ (q.dispatchesOf row₀.eventId) row ∧
      (row₀.aggregateType ≠ b.aggregateType → q.dispatchesOf row₀.eventId = [] ∧ row = row₀)) ∧
    (∀ id, q.events.find? id = none ↔ events.find? id = none) ∧
    (∀ d ∈ q.log, ∃ row₀ ∈ events.rows, row₀.eventId = d.row.eventId) ∧
    (∀ c ∈ q.reports, c.processed + c.failed = c.scanned ∧
      c.failed = c.retried + c.movedToDlq) := by
  obtain ⟨hids, hlog, hreports⟩ := queue_rows h
  refine ⟨?_, hids, hlog, fun c hc => ⟨(hreports c hc).seen, (hreports c hc).failed⟩⟩
  intro row₀ hrow₀
  obtain ⟨row, hfind, hlife⟩ := exec_row h hrow₀
  exact ⟨row, hfind, rowLife_of_exec hlife, dispatches_eq_nil hlife⟩

def timedOut (now : Int) : Pass :=
  { now, outcome := fun _ => .error (.error "timeout"), order := id, perm := fun _ => .refl _ }

def delivered (now : Int) : Pass :=
  { now, outcome := fun _ => .ok (), order := List.reverse, perm := List.reverse_perm }

/-- A coin event fails once, waits thirty seconds and is then delivered. -/
theorem outbox_row_life_retried :
    ∃ q row, exec (Queue.step coinOutboxProcessor coinIdempotencyConflict)
        (Queue.start (insertEvent (Table.empty _) coinAdded) 0)
        [timedOut 0, delivered 29999, delivered 30000] = some q ∧
      RowLife coinOutboxProcessor coinIdempotencyConflict coinAdded.row
        (q.dispatchesOf coinAdded.eventId) row ∧
      (q.dispatchesOf coinAdded.eventId).map (·.at_) = [0, 30000] ∧
      row.attemptCount = 1 ∧ row.processedAt = some 30000 := by
  obtain ⟨q, hq, hread⟩ : ∃ q, exec (Queue.step coinOutboxProcessor coinIdempotencyConflict)
      (Queue.start (insertEvent (Table.empty _) coinAdded) 0)
      [timedOut 0, delivered 29999, delivered 30000] = some q ∧
        ((q.dispatchesOf coinAdded.eventId).map (·.at_),
          (q.events.find? coinAdded.eventId).map fun row => (row.attemptCount, row.processedAt))
            = ([0, 30000], some (1, some 30000)) :=
    Option.map_eq_some_iff.mp (by decide +kernel)
  obtain ⟨hrows, -⟩ := outbox_row_life _ _ _ _ _ q hq
  obtain ⟨row, hfind, hlife, -⟩ := hrows coinAdded.row (by decide)
  have hfind : q.events.find? coinAdded.eventId = some row := hfind
  rw [hfind] at hread
  simp only [Option.map_some, Prod.mk.injEq, Option.some.injEq] at hread
  exact ⟨q, row, hq, hlife, hread.1, hread.2.1, hread.2.2⟩

end QuizBackend.Outbox
