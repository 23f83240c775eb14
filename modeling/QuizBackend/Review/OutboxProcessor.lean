import QuizBackend.Outbox.Isolation
import QuizBackend.Review.Tables

/-!
# `ReviewOutboxProcessorService`

The processor of the review announcements is a hand-written twin of `BaseOutboxProcessor`. It
polls a batch, dispatches every row of it and writes the outcome back, row by row and without a
transaction. Two things set it apart from its siblings. Its dead-letter `UPDATE` asks for
`next_attempt_at = NULL`, a column the table declares `NOT NULL`; the statement stands in the
`catch` block, so its rejection leaves the loop and the rows after it are not reached. And
`dispatchEvent` has one constructor for the three types of row, `ReviewSubmittedEvent`, filled with
an empty `reviewId`.

`isolates_iff` says when a call nevertheless does what such a processor is for.
-/

namespace QuizBackend.Review.OutboxProcessor

open Lib Outbox Processor Table

/-! ## What a row becomes on the bus -/

structure SubmittedPayload where
  quizId : String
  quizTitle : String
  quizCreatorId : String
  reviewId : String
  userId : String
  rating : Int

structure DeletedPayload where
  quizId : String
  quizTitle : String
  quizCreatorId : String
  reviewId : String

inductive PublishedReviewDomainEvent where
  | submitted (payload : SubmittedPayload)
  | deleted (payload : DeletedPayload)

namespace PublishedReviewDomainEvent

def eventType : PublishedReviewDomainEvent → String
  | submitted _ => "review.submitted"
  | deleted _ => "review.deleted"

def quizId : PublishedReviewDomainEvent → String
  | submitted payload => payload.quizId
  | deleted payload => payload.quizId

def reviewId : PublishedReviewDomainEvent → String
  | submitted payload => payload.reviewId
  | deleted payload => payload.reviewId

end PublishedReviewDomainEvent

def readQuizId (row : OutboxRow) : Option String :=
  match row.field "quizId" with
  | some (.str s) => if s.isEmpty then none else some s
  | _ => none

/-- `typeof payload[key] === 'string' ? payload[key] : ''`. -/
def stringField (row : OutboxRow) (key : String) : String :=
  match row.field key with
  | some (.str s) => s
  | _ => ""

/-- The event `dispatchEvent` makes of a row whose payload names the quiz. -/
def reviewSubmittedEvent (row : OutboxRow) (quizId : String) : PublishedReviewDomainEvent :=
  .submitted
    { quizId, quizTitle := stringField row "quizTitle",
      quizCreatorId := stringField row "quizCreatorId", reviewId := "", userId := "", rating := 0 }

theorem readQuizId_eq_some {row : OutboxRow} {quizId : String} (h : readQuizId row = some quizId) :
    row.field "quizId" = some (.str quizId) := by
  unfold readQuizId at h
  split at h
  · next s hs =>
    split at h
    · cases h
    · cases h
      exact hs
  · cases h

/-! ## The statements -/

inductive PgError where
  | notNullViolation (column : String)
  deriving DecidableEq

/-- `UPDATE outbox_events SET next_attempt_at = next, … WHERE event_id = eventId`. A `NULL` is
refused as soon as there is a row to write it to. -/
def setNextAttempt (events : OutboxEvents) (eventId : String) (next : Option Int)
    (set : Int → OutboxRow → OutboxRow) (hset : ∀ t row, (set t row).eventId = row.eventId) :
    Except PgError OutboxEvents :=
  match next with
  | some t => .ok (events.modify eventId (set t) (hset t))
  | none =>
    if (events.find? eventId).isSome then .error (.notNullViolation "next_attempt_at")
    else .ok events

theorem eventId_reviewWriteBack (snapshot : OutboxRow) (now at_ : Int) (d : Delivery)
    (row : OutboxRow) : (reviewWriteBack snapshot now at_ d row).eventId = row.eventId :=
  congrArg (·.1) (content_reviewWriteBack snapshot now at_ d row)

/-! ## `processPendingEvents` -/

/-- One call: the clock at its start, what `dispatchStrict` does with the event of each row, and
`Date.now()` where the row is put off. -/
structure Call where
  nowIso : Int
  dispatchStrict : OutboxRow → Delivery
  clock : OutboxRow → Int

/-- What a call has done: the table, the rows `dispatchEvent` was called for, the events it put on
the bus with their rows, the two counters, and the error that ended the call. -/
structure Progress where
  events : OutboxEvents
  attempted : List String
  dispatched : List (OutboxRow × PublishedReviewDomainEvent)
  processed : Nat
  failed : Nat
  rejected : Option PgError

open Call

namespace Call

def poisonThreshold : Nat := 10

def outcome (call : Call) (row : OutboxRow) : Delivery :=
  match readQuizId row with
  | none => .error (.reviewPayload "payload missing quizId")
  | some _ => call.dispatchStrict row

def published (row : OutboxRow) : List (OutboxRow × PublishedReviewDomainEvent) :=
  match readQuizId row with
  | none => []
  | some quizId => [(row, reviewSubmittedEvent row quizId)]

def settleFailure (call : Call) (events : OutboxEvents) (row : OutboxRow) (e : Thrown) :
    Except PgError OutboxEvents :=
  let message := e.message.getD "unknown"
  let attemptCount := row.attemptCount + 1
  if isReviewPayloadError e || attemptCount ≥ poisonThreshold then
    setNextAttempt events row.eventId none
      (fun next => setDlq attemptCount call.nowIso next message
        s!"poison_threshold_exceeded:{message}")
      fun _ _ => rfl
  else
    setNextAttempt events row.eventId (some (call.clock row + reviewBackoffMs attemptCount))
      (fun next => setRetry attemptCount call.nowIso next message) fun _ _ => rfl

def processRow (call : Call) (progress : Progress) (row : OutboxRow) : Progress :=
  let progress := { progress with
    attempted := progress.attempted ++ [row.eventId]
    dispatched := progress.dispatched ++ published row }
  match call.outcome row with
  | .ok () =>
    { progress with
      events := progress.events.modify row.eventId
        (reviewWriteBack row call.nowIso (call.clock row) (.ok ()))
        (eventId_reviewWriteBack row _ _ _)
      processed := progress.processed + 1 }
  | .error e =>
    let progress := { progress with failed := progress.failed + 1 }
    match call.settleFailure progress.events row e with
    | .ok events => { progress with events }
    | .error refusal => { progress with rejected := some refusal }

def processRows (call : Call) : List OutboxRow → Progress → Progress
  | [], progress => progress
  | row :: rows, progress =>
    let progress := call.processRow progress row
    if progress.rejected.isSome then progress else call.processRows rows progress

def processPendingEvents (call : Call) (events : OutboxEvents) : Progress :=
  call.processRows (review.batch events call.nowIso) ⟨events, [], [], 0, 0, none⟩

end Call

/-- The rows `dispatchEvent` is called for in a series of calls. -/
def attemptedIn : OutboxEvents → List Call → List String
  | _, [] => []
  | events, call :: calls =>
    let progress := call.processPendingEvents events
    progress.attempted ++ attemptedIn progress.events calls

/-! ## What the processor is for -/

/-- The failure of the row is final: a payload error, or the failure that reaches the threshold. -/
def Call.isFinal (call : Call) (row : OutboxRow) : Bool :=
  match call.outcome row with
  | .ok () => false
  | .error e => isReviewPayloadError e || row.attemptCount + 1 ≥ poisonThreshold

/-- What becomes of a row that was polled. -/
structure Settled (call : Call) (row row' : OutboxRow) : Prop where
  delivered : call.outcome row = .ok () → row'.processedAt = some call.nowIso
  retried : ∀ e, call.outcome row = .error e → call.isFinal row = false →
    row'.processedAt = none ∧ row'.attemptCount = row.attemptCount + 1 ∧
      row'.nextAttemptAt = call.clock row + reviewBackoffMs (row.attemptCount + 1) ∧
      row'.lastError = some (e.message.getD "unknown")
  final : call.isFinal row = true → row'.failedAt.isSome = true

/-- The event is what the row says. -/
structure Faithful (row : OutboxRow) (event : PublishedReviewDomainEvent) : Prop where
  eventType : event.eventType = row.eventType
  quizId : row.field "quizId" = some (.str event.quizId)
  reviewId : row.field "reviewId" = some (.str event.reviewId)

/-- The call drains its batch: every selected row is attempted and written back, a row that is
given up is never taken again, and what reaches the bus is what the rows say. -/
structure Isolates (events : OutboxEvents) (call : Call) : Prop where
  attempted : (call.processPendingEvents events).attempted
    = (review.batch events call.nowIso).map (·.eventId)
  settled : ∀ row ∈ review.batch events call.nowIso,
    ∃ row', (call.processPendingEvents events).events.find? row.eventId = some row' ∧
      Settled call row row'
  laidToRest : ∀ row ∈ review.batch events call.nowIso, call.isFinal row = true →
    ∀ later, row.eventId ∉ attemptedIn (call.processPendingEvents events).events later
  faithful : ∀ x ∈ (call.processPendingEvents events).dispatched, Faithful x.1 x.2

/-- The row is one the processor can handle: it names its quiz, its delivery succeeds or may be
tried again, and the one event the processor knows is its own. -/
structure Harmless (call : Call) (row : OutboxRow) : Prop where
  notFinal : call.isFinal row = false
  eventType : row.eventType = "review.submitted"
  reviewId : row.field "reviewId" = some (.str "")

/-! ## One row -/

variable {rows : List OutboxRow}

section Rows

variable {call : Call} {progress : Progress} {row : OutboxRow}

section

variable (call : Call)

section

variable (progress : Progress)

theorem events_processRow (row : OutboxRow)
    (h : call.isFinal row = false) :
    (call.processRow progress row).events
      = progress.events.modify row.eventId
          (reviewWriteBack row call.nowIso (call.clock row) (call.outcome row))
          (eventId_reviewWriteBack row _ _ _) := by
  unfold processRow
  unfold isFinal at h
  split
  · next hok => simp only [hok]
  · next e herr =>
    rw [herr] at h
    have hwrite : reviewWriteBack row call.nowIso (call.clock row) (.error e)
        = setRetry (row.attemptCount + 1) call.nowIso
            (call.clock row + reviewBackoffMs (row.attemptCount + 1))
            (e.message.getD "unknown") := by
      simp only [reviewWriteBack]
      exact if_neg (by simpa [poisonThreshold] using h)
    simp only [settleFailure, h, Bool.false_eq_true, if_false, setNextAttempt, herr, hwrite]

theorem attempted_processRow (row : OutboxRow) :
    (call.processRow progress row).attempted = progress.attempted ++ [row.eventId] := by
  unfold processRow
  split
  · rfl
  · dsimp only
    split <;> rfl

theorem dispatched_processRow (row : OutboxRow) :
    (call.processRow progress row).dispatched = progress.dispatched ++ published row := by
  unfold processRow
  split
  · rfl
  · dsimp only
    split <;> rfl

theorem rejected_processRow {row : OutboxRow}
    (h : call.isFinal row = false) :
    (call.processRow progress row).rejected = progress.rejected := by
  unfold processRow
  unfold isFinal at h
  split
  · rfl
  · next e herr =>
    rw [herr] at h
    simp only [settleFailure, h, Bool.false_eq_true, if_false, setNextAttempt]

theorem processRow_of_isFinal {row : OutboxRow}
    (h : call.isFinal row = true) (hfind : progress.events.find? row.eventId = some row) :
    (call.processRow progress row).events = progress.events ∧
      (call.processRow progress row).rejected = some (.notNullViolation "next_attempt_at") := by
  unfold processRow
  unfold isFinal at h
  split
  · next hok =>
    rw [hok] at h
    cases h
  · next e herr =>
    rw [herr] at h
    simp only [settleFailure, h, if_true, setNextAttempt, hfind, Option.isSome_some]
    exact ⟨trivial, trivial⟩

end

/-! ## The loop -/

theorem processRows_append (h : ∀ row ∈ rows, call.isFinal row = false)
    (rest : List OutboxRow) (progress : Progress) (hgoing : progress.rejected = none) :
    call.processRows (rows ++ rest) progress
        = call.processRows rest (rows.foldl call.processRow progress) ∧
      (rows.foldl call.processRow progress).rejected = none := by
  induction rows generalizing progress with
  | nil => exact ⟨rfl, hgoing⟩
  | cons row rows ih =>
    have hnext : (call.processRow progress row).rejected = none :=
      (rejected_processRow call progress (h row (List.mem_cons_self ..))).trans hgoing
    rw [List.cons_append, processRows, List.foldl_cons]
    simp only [hnext, Option.isSome_none, Bool.false_eq_true, if_false]
    exact ih (fun r hr => h r (List.mem_cons_of_mem row hr)) _ hnext

theorem attempted_foldl (rows : List OutboxRow) (progress : Progress) :
    (rows.foldl call.processRow progress).attempted
      = progress.attempted ++ rows.map (·.eventId) := by
  induction rows generalizing progress with
  | nil => rw [List.foldl_nil, List.map_nil, List.append_nil]
  | cons row rows ih =>
    rw [List.foldl_cons, ih, attempted_processRow, List.map_cons, List.append_assoc,
      List.singleton_append]

theorem dispatched_foldl (rows : List OutboxRow) (progress : Progress) :
    (rows.foldl call.processRow progress).dispatched
      = progress.dispatched ++ rows.flatMap published := by
  induction rows generalizing progress with
  | nil => rw [List.foldl_nil, List.flatMap_nil, List.append_nil]
  | cons row rows ih =>
    rw [List.foldl_cons, ih, dispatched_processRow, List.flatMap_cons, List.append_assoc]

theorem events_foldl (h : ∀ row ∈ rows, call.isFinal row = false)
    (progress : Progress) :
    (rows.foldl call.processRow progress).events
      = progress.events.modifyEach rows (·.eventId)
          (fun row => reviewWriteBack row call.nowIso (call.clock row) (call.outcome row))
          fun row => eventId_reviewWriteBack row _ _ _ := by
  induction rows generalizing progress with
  | nil => rfl
  | cons row rows ih =>
    rw [List.foldl_cons, ih fun r hr => h r (List.mem_cons_of_mem row hr),
      events_processRow call progress row (h row (List.mem_cons_self ..))]
    rfl

end

/-- **A call without a final failure** goes through its batch. -/
theorem processPendingEvents_of_forall {events : OutboxEvents}
    (h : ∀ row ∈ review.batch events call.nowIso, call.isFinal row = false) :
    call.processPendingEvents events
      = (review.batch events call.nowIso).foldl call.processRow
          ⟨events, [], [], 0, 0, none⟩ := by
  have hrun := (processRows_append call h [] ⟨events, [], [], 0, 0, none⟩ rfl).1
  rw [List.append_nil] at hrun
  exact hrun

/-- **A call ends with its first final failure.** -/
theorem processPendingEvents_of_split {events : OutboxEvents} {before after : List OutboxRow}
    (hbatch : review.batch events call.nowIso = before ++ row :: after)
    (hbefore : ∀ r ∈ before, call.isFinal r = false) (h : call.isFinal row = true) :
    (call.processPendingEvents events).attempted = before.map (·.eventId) ++ [row.eventId] ∧
      (call.processPendingEvents events).events
        = (before.foldl call.processRow ⟨events, [], [], 0, 0, none⟩).events := by
  obtain ⟨hrun, hgoing⟩ := processRows_append call hbefore (row :: after)
    ⟨events, [], [], 0, 0, none⟩ rfl
  have hmem : row ∈ review.batch events call.nowIso :=
    hbatch ▸ List.mem_append_right before (List.mem_cons_self ..)
  have hnodup : ((before ++ row :: after).map (·.eventId)).Nodup :=
    hbatch ▸ nodup_poll events _ 100
  have hother : ∀ r ∈ before, r.eventId ≠ row.eventId := by
    intro r hr he
    rw [List.map_append, List.map_cons] at hnodup
    exact (List.nodup_append.mp hnodup).2.2 r.eventId (List.mem_map_of_mem hr) row.eventId
      (List.mem_cons_self ..) he
  have hfind : (before.foldl call.processRow ⟨events, [], [], 0, 0, none⟩).events.find?
      row.eventId = some row := by
    rw [events_foldl call hbefore, find?_modifyEach_of_forall_ne hother]
    exact find?_of_mem (mem_of_mem_poll hmem).1
  obtain ⟨hsame, hrejected⟩ := processRow_of_isFinal call _ h hfind
  have hend : call.processPendingEvents events
      = call.processRow (before.foldl call.processRow ⟨events, [], [], 0, 0, none⟩) row := by
    rw [processPendingEvents, hbatch, hrun, processRows]
    simp only [hrejected, Option.isSome_some, if_true]
  rw [hend, attempted_processRow, attempted_foldl, List.nil_append]
  exact ⟨rfl, hsame⟩

end Rows

/-! ## The next call -/

/-- An element that stands once in a list stands in a part of it after a part of what precedes
it. -/
theorem split_of_sublist {α : Type} {l xs zs : List α} {y : α} (h : l.Sublist (xs ++ y :: zs))
    (hy : y ∈ l) (hxs : y ∉ xs) (hzs : y ∉ zs) :
    ∃ l₁ l₂, l = l₁ ++ y :: l₂ ∧ l₁.Sublist xs := by
  obtain ⟨l₁, l₂, rfl, h₁, h₂⟩ := List.sublist_append_iff.mp h
  have hy₂ : y ∈ l₂ := (List.mem_append.mp hy).resolve_left fun hmem => hxs (h₁.mem hmem)
  cases h₂ with
  | cons _ htail => exact absurd (htail.mem hy₂) hzs
  | cons_cons _ htail => exact ⟨l₁, _, rfl, h₁⟩

theorem attempted_processRows (call : Call) (rows : List OutboxRow) (progress : Progress) :
    progress.attempted <+: (call.processRows rows progress).attempted := by
  induction rows generalizing progress with
  | nil => exact List.prefix_rfl
  | cons row rows ih =>
    have hstep : progress.attempted <+: (call.processRow progress row).attempted :=
      attempted_processRow call progress row ▸ List.prefix_append _ _
    rw [processRows]
    split
    · exact hstep
    · exact hstep.trans (ih _)

theorem createdAt_reviewWriteBack (snapshot : OutboxRow) (now at_ : Int) (d : Delivery)
    (row : OutboxRow) : (reviewWriteBack snapshot now at_ d row).createdAt = row.createdAt := by
  cases d with
  | ok u =>
    simp only [reviewWriteBack, unlessProcessed]
    split <;> rfl
  | error e =>
    simp only [reviewWriteBack]
    split <;> rfl

theorem readQuizId_of_content {row row' : OutboxRow} (h : row.content = row'.content) :
    readQuizId row = readQuizId row' := by
  have hpayload : row.payload = row'.payload := congrArg (·.2.2.2) h
  unfold readQuizId OutboxRow.field
  rw [hpayload]

def Call.again (call : Call) : Call := { call with dispatchStrict := fun _ => .ok () }

theorem readQuizId_of_not_final {call : Call} {row : OutboxRow} (h : call.isFinal row = false) :
    ∃ quizId, readQuizId row = some quizId := by
  cases hread : readQuizId row with
  | none => simp [isFinal, outcome, hread, isReviewPayloadError] at h
  | some quizId => exact ⟨quizId, rfl⟩

theorem isFinal_again {call : Call} {row : OutboxRow} {quizId : String}
    (h : readQuizId row = some quizId) : call.again.isFinal row = false := by
  simp [isFinal, outcome, again, h]

def Call.written (call : Call) (rows : List OutboxRow) : OutboxRow → OutboxRow :=
  modifiedBy (·.eventId) rows (·.eventId)
    fun row => reviewWriteBack row call.nowIso (call.clock row) (call.outcome row)

theorem written_of_forall_ne {call : Call} {row : OutboxRow}
    (h : ∀ r ∈ rows, r.eventId ≠ row.eventId) : call.written rows row = row :=
  modifiedBy_of_forall_ne h

theorem content_written (call : Call) (rows : List OutboxRow) (row : OutboxRow) :
    (call.written rows row).content = row.content :=
  modifiedBy_eq OutboxRow.content (fun r => content_reviewWriteBack r _ _ _) rows row

theorem createdAt_written (call : Call) (rows : List OutboxRow) (row : OutboxRow) :
    (call.written rows row).createdAt = row.createdAt :=
  modifiedBy_eq OutboxRow.createdAt (fun r => createdAt_reviewWriteBack r _ _ _) rows row

/-- After a call that a row has ended, the row's place in the queue is no later than before, and
what stands before it was written back. -/
theorem batch_after {call : Call} {events : OutboxEvents} {row : OutboxRow}
    {before after : List OutboxRow}
    (hbatch : review.batch events call.nowIso = before ++ row :: after)
    (hbefore : ∀ r ∈ before, call.isFinal r = false) (h : call.isFinal row = true) :
    ∃ l₁ l₂, review.batch (call.processPendingEvents events).events call.nowIso
        = l₁ ++ row :: l₂ ∧ ∀ r ∈ l₁, ∃ x ∈ before, r = call.written before x := by
  let pending : OutboxRow → Bool := fun r => review.pendingWhere call.nowIso r
  let rest := after ++ (queue events pending).drop 100
  have hqueue : queue events pending = before ++ row :: rest := by
    rw [← List.take_append_drop 100 (queue events pending)]
    show review.batch events call.nowIso ++ _ = _
    rw [hbatch, List.append_assoc, List.cons_append]
  have hlength : before.length < 100 := by
    have htake : (before ++ row :: after).length ≤ 100 := hbatch ▸ List.length_take_le ..
    rw [List.length_append, List.length_cons] at htake
    omega
  have hnodup := nodup_queue events pending
  rw [hqueue, List.map_append, List.map_cons, List.nodup_append] at hnodup
  have hother : ∀ r ∈ before, r.eventId ≠ row.eventId := fun r hr =>
    hnodup.2.2 r.eventId (List.mem_map_of_mem hr) row.eventId (List.mem_cons_self ..)
  have hlater : ∀ r ∈ rest, r.eventId ≠ row.eventId := fun r hr he =>
    (List.nodup_cons.mp hnodup.2.1).1 (he ▸ List.mem_map_of_mem hr)
  have hsame : call.written before row = row := written_of_forall_ne hother
  have hin : ∀ r ∈ before ++ row :: rest, r ∈ events.rows ∧ pending r = true := fun r hr =>
    mem_queue.mp (hqueue ▸ hr)
  have hrows : (call.processPendingEvents events).events.rows
      = events.rows.map (call.written before) := by
    rw [(processPendingEvents_of_split hbatch hbefore h).2, events_foldl call hbefore]
    exact rows_modifyEach events before
  have hsub : (queue (call.processPendingEvents events).events pending).Sublist
      (before.map (call.written before) ++ row :: rest.map (call.written before)) := by
    have hall := queue_sublist hrows (createdAt_written call before) (p := pending) <| by
      intro r hr hp
      by_cases hx : ∃ x ∈ before, x.eventId = r.eventId
      · obtain ⟨x, hx, he⟩ := hx
        obtain ⟨hmem, hpending⟩ := hin x (List.mem_append_left _ hx)
        exact eq_of_key_eq hmem hr he ▸ hpending
      · rwa [written_of_forall_ne fun x hmem he => hx ⟨x, hmem, he⟩] at hp
    rw [hqueue, List.map_append, List.map_cons, hsame] at hall
    exact hall
  have hmem : row ∈ queue (call.processPendingEvents events).events pending := by
    obtain ⟨hrow, hpending⟩ := hin row (List.mem_append_right _ (List.mem_cons_self ..))
    refine mem_queue.mpr ⟨?_, hpending⟩
    rw [hrows]
    exact List.mem_map.mpr ⟨row, hrow, hsame⟩
  have hnot : ∀ rows : List OutboxRow, (∀ r ∈ rows, r.eventId ≠ row.eventId) →
      row ∉ rows.map (call.written before) := by
    intro rows hrows' hmap
    obtain ⟨r, hr, he⟩ := List.mem_map.mp hmap
    refine hrows' r hr ?_
    rw [← congrArg OutboxRow.eventId he]
    exact (congrArg (·.1) (content_written call before r)).symm
  obtain ⟨l₁, l₂, hl, hl₁⟩ :=
    split_of_sublist hsub hmem (hnot before hother) (hnot rest hlater)
  have hl₁length : l₁.length < 100 :=
    lt_of_le_of_lt (hl₁.length_le.trans_eq (List.length_map _)) hlength
  refine ⟨l₁, l₂.take (99 - l₁.length), ?_, ?_⟩
  · show (queue _ pending).take 100 = _
    rw [hl, List.take_append, List.take_of_length_le (by omega),
      show 100 - l₁.length = (99 - l₁.length) + 1 by omega, List.take_succ_cons]
  · intro r hr
    obtain ⟨x, hx, he⟩ := List.mem_map.mp (hl₁.mem hr)
    exact ⟨x, hx, he.symm⟩

/-- **A row that ended a call is taken again.** The rows before it in the queue were written back
and are gone, or still there with their quizzes; none of them stops the next call. -/
theorem mem_attempted_again {call : Call} {events : OutboxEvents} {row : OutboxRow}
    {before after : List OutboxRow}
    (hbatch : review.batch events call.nowIso = before ++ row :: after)
    (hbefore : ∀ r ∈ before, call.isFinal r = false) (h : call.isFinal row = true) :
    row.eventId ∈
      (call.again.processPendingEvents (call.processPendingEvents events).events).attempted := by
  obtain ⟨l₁, l₂, hbatch', hl₁⟩ := batch_after hbatch hbefore h
  have hgoing : ∀ r ∈ l₁, call.again.isFinal r = false := by
    intro r hr
    obtain ⟨x, hx, rfl⟩ := hl₁ r hr
    obtain ⟨quizId, hread⟩ := readQuizId_of_not_final (hbefore x hx)
    exact isFinal_again ((readQuizId_of_content (content_written call before x)).trans hread)
  generalize (call.processPendingEvents events).events = events' at hbatch'
  have hrun := (processRows_append call.again hgoing (row :: l₂)
    ⟨events', [], [], 0, 0, none⟩ rfl).1
  have hattempted : (call.again.processPendingEvents events').attempted
      = (call.again.processRows (row :: l₂)
          (l₁.foldl call.again.processRow ⟨events', [], [], 0, 0, none⟩)).attempted := by
    rw [processPendingEvents]
    show (call.again.processRows (review.batch events' call.nowIso) _).attempted = _
    rw [hbatch', hrun]
  rw [hattempted, processRows]
  have hself : row.eventId ∈ (call.again.processRow
      (l₁.foldl call.again.processRow ⟨events', [], [], 0, 0, none⟩) row).attempted := by
    rw [attempted_processRow]
    exact List.mem_append_right _ (List.mem_singleton.mpr rfl)
  split
  · exact hself
  · exact (attempted_processRows call.again l₂ _).subset hself

/-! ## When a call does its work -/

theorem settled_reviewWriteBack {call : Call} {row : OutboxRow} (h : call.isFinal row = false)
    (hopen : row.processedAt = none) :
    Settled call row (reviewWriteBack row call.nowIso (call.clock row) (call.outcome row) row) := by
  refine ⟨?_, ?_, ?_⟩
  · intro hok
    simp only [hok, reviewWriteBack, unlessProcessed, hopen, Option.isNone_none, if_true,
      setProcessed]
  · intro e herr _
    have hretry : ¬ (isReviewPayloadError e || decide (row.attemptCount + 1 ≥ 10)) = true := by
      simpa [isFinal, herr, poisonThreshold] using h
    simp only [herr, reviewWriteBack, if_neg hretry, setRetry]
    exact ⟨hopen, trivial, trivial, trivial⟩
  · intro hfinal
    rw [h] at hfinal
    cases hfinal

theorem faithful_reviewSubmittedEvent_iff {row : OutboxRow} {quizId : String}
    (h : readQuizId row = some quizId) :
    Faithful row (reviewSubmittedEvent row quizId) ↔
      row.eventType = "review.submitted" ∧ row.field "reviewId" = some (.str "") :=
  ⟨fun hf => ⟨hf.eventType.symm, hf.reviewId⟩,
    fun hf => ⟨hf.1.symm, readQuizId_eq_some h, hf.2⟩⟩

theorem isFinal_of_isolates {events : OutboxEvents} {call : Call} (h : Isolates events call) :
    ∀ row ∈ review.batch events call.nowIso, call.isFinal row = false := by
  intro row hrow
  by_contra hfinal
  cases hfirst : (review.batch events call.nowIso).find? call.isFinal with
  | none => exact hfinal (Bool.eq_false_iff.mpr (List.find?_eq_none.mp hfirst row hrow))
  | some first =>
    obtain ⟨hfinal, before, after, hbatch, hbefore⟩ := List.find?_eq_some_iff_append.mp hfirst
    have hmem : first ∈ review.batch events call.nowIso :=
      hbatch ▸ List.mem_append_right before (List.mem_cons_self ..)
    have hagain := mem_attempted_again hbatch
      (fun r hr => by simpa using hbefore r hr) hfinal
    exact h.laidToRest first hmem hfinal [call.again] (List.mem_append_left _ hagain)

/-- **A call drains its batch and tells it right exactly when** every row of the batch names its
quiz, is delivered or may be tried again, and is a `review.submitted` without a review. -/
theorem isolates_iff (events : OutboxEvents) (call : Call) :
    Isolates events call ↔
      ∀ row ∈ Processor.review.batch events call.nowIso, Harmless call row := by
  constructor
  · intro h row hrow
    have hfinal := isFinal_of_isolates h
    obtain ⟨quizId, hread⟩ := readQuizId_of_not_final (hfinal row hrow)
    have hsent : (row, reviewSubmittedEvent row quizId)
        ∈ (call.processPendingEvents events).dispatched := by
      rw [processPendingEvents_of_forall hfinal, dispatched_foldl, List.nil_append]
      refine List.mem_flatMap.mpr ⟨row, hrow, ?_⟩
      rw [Call.published, hread]
      exact List.mem_singleton.mpr rfl
    obtain ⟨htype, hreview⟩ := (faithful_reviewSubmittedEvent_iff hread).mp (h.faithful _ hsent)
    exact ⟨hfinal row hrow, htype, hreview⟩
  · intro h
    have hfinal : ∀ row ∈ Processor.review.batch events call.nowIso, call.isFinal row = false :=
      fun row hrow => (h row hrow).notFinal
    refine ⟨?_, ?_, ?_, ?_⟩
    · rw [processPendingEvents_of_forall hfinal, attempted_foldl, List.nil_append]
    · intro row hrow
      obtain ⟨hmem, hpending⟩ := mem_of_mem_poll hrow
      have hopen : row.processedAt = none := by
        simp only [Processor.pendingWhere, Bool.and_eq_true, Option.isNone_iff_eq_none] at hpending
        exact hpending.1.2
      have hnodup : ((Processor.review.batch events call.nowIso).map (·.eventId)).Nodup :=
        nodup_poll events _ 100
      refine ⟨_, ?_, settled_reviewWriteBack (hfinal row hrow) hopen⟩
      rw [processPendingEvents_of_forall hfinal, events_foldl call hfinal,
        Table.find?_modifyEach_of_mem hnodup hrow, Table.find?_of_mem hmem]
      rfl
    · intro row hrow hlast
      rw [hfinal row hrow] at hlast
      cases hlast
    · intro x hx
      rw [processPendingEvents_of_forall hfinal, dispatched_foldl, List.nil_append] at hx
      obtain ⟨row, hrow, hx⟩ := List.mem_flatMap.mp hx
      unfold Call.published at hx
      split at hx
      · cases hx
      · next quizId hread =>
        rw [List.mem_singleton.mp hx]
        exact (faithful_reviewSubmittedEvent_iff hread).mpr ⟨(h row hrow).eventType,
          (h row hrow).reviewId⟩

def nearThreshold : OutboxEvents :=
  ⟨[{ (scheduleReviewSubmitted "e1" ⟨1, "Capitals", "10", 1, 20, 5⟩ 1).row with
        attemptCount := 9 },
    (scheduleReviewDeleted "e2" ⟨1, "Capitals", "10", 2⟩ 2).row], by decide⟩

def oneDeletion : OutboxEvents :=
  ⟨[(scheduleReviewDeleted "e2" ⟨1, "Capitals", "10", 2⟩ 2).row], by decide⟩

def busFails : Call :=
  { nowIso := 5
    dispatchStrict := fun row => if row.eventId = "e1" then .error (.error "bus down") else .ok ()
    clock := fun _ => 6 }

/-- The tenth failure of a row keeps the deletion behind it from being dispatched; and where the
deletion is dispatched, it goes out as a `review.submitted` without a review. -/
theorem tenth_failure_ends_the_call :
    (busFails.processPendingEvents nearThreshold).attempted = ["e1"] ∧
      (busFails.processPendingEvents nearThreshold).rejected
        = some (.notNullViolation "next_attempt_at") ∧
      ¬ Isolates nearThreshold busFails ∧
      (busFails.processPendingEvents oneDeletion).dispatched.map
        (fun x => (x.2.eventType, x.2.reviewId)) = [("review.submitted", "")] ∧
      ¬ Isolates oneDeletion busFails := by
  have hattempted : (busFails.processPendingEvents nearThreshold).attempted = ["e1"] := by
    decide +kernel
  have hbatch : (Processor.review.batch nearThreshold busFails.nowIso).map (·.eventId)
      = ["e1", "e2"] := by decide +kernel
  have hdispatched : (busFails.processPendingEvents oneDeletion).dispatched.map
      (fun x => (x.1.eventType, x.2.eventType)) = [("review.deleted", "review.submitted")] := by
    decide +kernel
  refine ⟨hattempted, by decide +kernel, ?_, by decide +kernel, ?_⟩
  · intro h
    have hall := h.attempted
    rw [hattempted, hbatch] at hall
    exact absurd hall (by decide)
  · intro h
    obtain ⟨x, hx, he⟩ := List.mem_map.mp
      (hdispatched ▸ List.mem_singleton.mpr rfl :
        ("review.deleted", "review.submitted") ∈ (busFails.processPendingEvents
          oneDeletion).dispatched.map (fun x => (x.1.eventType, x.2.eventType)))
    have htype := (h.faithful x hx).eventType
    obtain ⟨hrow, hevent⟩ := Prod.mk.inj he
    rw [hrow, hevent] at htype
    exact absurd htype (by decide)

end QuizBackend.Review.OutboxProcessor
