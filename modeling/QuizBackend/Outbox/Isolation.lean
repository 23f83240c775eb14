import QuizBackend.Outbox.Processors

/-!
# Who may settle a row

The table is partitioned by `aggregate_type`, and a processor that polls beyond its aggregate
takes rows away from their owner: it marks them processed, or counts their attempts up until they
are dead-lettered, and the owner never sees them. `NotificationOutboxAdapter` polls every
aggregate, and so does the `auth` processor.

The first half is about one run of the notification adapter, as a function from the table to the
table: it leaves the other aggregates alone exactly when its batch holds none of their rows. The
second half puts all nine processors on one table, with selection, delivery and write-back as
separate steps in any order, and derives from `JobsOk` — what the pending jobs may be — that a
row is settled by its owner only, in every run in which the two greedy polls find nothing they
should not touch.
-/

namespace QuizBackend.Outbox

open Lib Table Processor

/-! ## A write-back never moves a row -/

def OutboxRow.content (row : OutboxRow) : String × String × String × List (String × JsonValue) :=
  (row.eventId, row.aggregateType, row.eventType, row.payload)

variable {f : OutboxRow → OutboxRow}

theorem content_unlessProcessed (h : ∀ row, (f row).content = row.content) (row : OutboxRow) :
    (unlessProcessed f row).content = row.content := by
  unfold unlessProcessed
  split
  · exact h row
  · rfl

theorem content_setProcessed (now : Int) (row : OutboxRow) :
    (setProcessed now row).content = row.content := rfl

theorem content_setRetry (n : Nat) (now next : Int) (e : String) (row : OutboxRow) :
    (setRetry n now next e row).content = row.content := rfl

theorem content_setDlq (n : Nat) (now next : Int) (e reason : String) (row : OutboxRow) :
    (setDlq n now next e reason row).content = row.content := rfl

theorem BaseOutboxProcessor.content_writeBack (b : BaseOutboxProcessor) (conflict : Thrown → Bool)
    (snapshot : OutboxRow) (now : Int) (d : Delivery) (row : OutboxRow) :
    (b.writeBack conflict snapshot now d row).content = row.content := by
  cases d with
  | ok u => exact content_unlessProcessed (content_setProcessed now) row
  | error e =>
    simp only [BaseOutboxProcessor.writeBack]
    split
    · exact content_unlessProcessed (content_setProcessed now) row
    · refine content_unlessProcessed ?_ row
      split
      · exact content_setDlq _ now _ _ _
      · exact content_setRetry _ now _ _

theorem content_authWriteBack (config : AuthSecurityConfig) (snapshot : OutboxRow) (now : Int)
    (d : Delivery) (row : OutboxRow) :
    (authWriteBack config snapshot now d row).content = row.content := by
  cases d with
  | ok u => exact content_unlessProcessed (content_setProcessed now) row
  | error e =>
    simp only [authWriteBack]
    split
    · exact content_unlessProcessed (content_setProcessed now) row
    · split
      · exact content_unlessProcessed (content_setDlq _ now _ _ _) row
      · exact content_unlessProcessed (content_setRetry _ now _ _) row

section

variable (snapshot : OutboxRow)

theorem content_tournamentWriteBack (at_ : Int) (d : Delivery)
    (row : OutboxRow) : (tournamentWriteBack snapshot at_ d row).content = row.content := by
  cases d with
  | ok u => exact content_setProcessed at_ row
  | error e =>
    simp only [tournamentWriteBack]
    split
    · exact content_setProcessed at_ row
    · split
      · exact content_unlessProcessed (content_setDlq _ at_ _ _ _) row
      · exact content_unlessProcessed (content_setRetry _ at_ _ _) row

theorem content_reviewWriteBack (now at_ : Int) (d : Delivery)
    (row : OutboxRow) : (reviewWriteBack snapshot now at_ d row).content = row.content := by
  cases d with
  | ok u =>
    exact content_unlessProcessed (f := fun row => { setProcessed now row with lastError := none })
      (fun _ => rfl) row
  | error e =>
    simp only [reviewWriteBack]
    split
    · rfl
    · exact content_setRetry _ now _ _ row

theorem content_notificationWriteBack (at_ : Int) (d : Delivery)
    (row : OutboxRow) : (notificationWriteBack snapshot at_ d row).content = row.content := by
  cases d <;> rfl

end

/-- **Whoever writes a row back**, it announces what it did. -/
theorem Processor.content_writeBack (config : AuthSecurityConfig) (snapshot : OutboxRow)
    (now at_ : Int) (d : Delivery) (p : Processor) (row : OutboxRow) :
    (p.writeBack config snapshot now at_ d row).content = row.content := by
  cases p with
  | notification => exact content_notificationWriteBack ..
  | tournament => exact content_tournamentWriteBack ..
  | review => exact content_reviewWriteBack ..
  | auth => exact content_authWriteBack ..
  | attempt | ranking | coin | achievement | dailyChallenge =>
    exact BaseOutboxProcessor.content_writeBack ..

structure KeepsIdentity (f : OutboxRow → OutboxRow) : Prop where
  eventId : ∀ row, (f row).eventId = row.eventId
  aggregateType : ∀ row, (f row).aggregateType = row.aggregateType

theorem keepsIdentity_of_content (h : ∀ row, (f row).content = row.content) : KeepsIdentity f :=
  ⟨fun row => congrArg (·.1) (h row), fun row => congrArg (·.2.1) (h row)⟩

theorem keepsIdentity_setProcessed (now : Int) : KeepsIdentity (setProcessed now) :=
  ⟨fun _ => rfl, fun _ => rfl⟩

theorem keepsIdentity_unlessProcessed (h : KeepsIdentity f) :
    KeepsIdentity (unlessProcessed f) := by
  refine ⟨fun row => ?_, fun row => ?_⟩ <;> unfold unlessProcessed <;> split
  · exact h.eventId row
  · rfl
  · exact h.aggregateType row
  · rfl

theorem BaseOutboxProcessor.keepsIdentity (b : BaseOutboxProcessor) (conflict : Thrown → Bool)
    (snapshot : OutboxRow) (now : Int) (d : Delivery) :
    KeepsIdentity (b.writeBack conflict snapshot now d) :=
  keepsIdentity_of_content (b.content_writeBack conflict snapshot now d)

theorem notificationWriteBack_keepsIdentity (snapshot : OutboxRow) (at_ : Int) (d : Delivery) :
    KeepsIdentity (notificationWriteBack snapshot at_ d) :=
  keepsIdentity_of_content (content_notificationWriteBack snapshot at_ d)

theorem Processor.keepsIdentity (config : AuthSecurityConfig) (snapshot : OutboxRow)
    (now at_ : Int) (d : Delivery) (p : Processor) :
    KeepsIdentity (p.writeBack config snapshot now at_ d) :=
  keepsIdentity_of_content (p.content_writeBack config snapshot now at_ d)

/-! ## One run of the notification adapter -/

structure NotificationSent where
  notificationId : Option JsonValue
  userId : Option JsonValue
  type : Option JsonValue
  channel : Option JsonValue
  timestamp : Int
  deriving DecidableEq

def notificationSent (row : OutboxRow) (at_ : Int) : NotificationSent :=
  { notificationId := row.field "notificationId", userId := row.field "userId",
    type := row.field "type", channel := row.field "channel", timestamp := at_ }

/-- What the adapter finds around it: whether it is shutting down, what `acquireAdvisoryLock`
answers (`none` without a cache), the bus with the outcome of each `emit` (`none` without a bus)
and the time each row is written back. -/
structure AdapterEnv where
  isShuttingDown : Bool
  lock : Option Bool
  bus : Option (OutboxRow → Delivery)
  clock : OutboxRow → Int

def AdapterEnv.dispatchEvent (env : AdapterEnv) (row : OutboxRow) : Delivery :=
  match env.bus with
  | none => .error (.error "NotificationDomainEventBus is not available for outbox dispatch")
  | some emit => emit row

structure AdapterState where
  events : OutboxEvents
  sent : List (String × NotificationSent)

section

variable (env : AdapterEnv)

def processEvent (s : AdapterState) (event : OutboxRow) : AdapterState :=
  { events := s.events.modify event.eventId
      (notificationWriteBack event (env.clock event) (env.dispatchEvent event))
      (notificationWriteBack_keepsIdentity event _ _).eventId
    sent := if env.bus.isSome then
        s.sent ++ [(event.eventId, notificationSent event (env.clock event))]
      else s.sent }

/-- `processBatch`. The chunks of ten run in parallel on different rows, so their order is
immaterial. -/
def processBatch (events : OutboxEvents) (now : Int) : AdapterState :=
  (notification.batch events now).foldl (processEvent env) ⟨events, []⟩

def AdapterEnv.runs : Bool := !env.isShuttingDown && env.lock != some false

def processOutbox (events : OutboxEvents) (now : Int) : AdapterState :=
  if env.runs then processBatch env events now else ⟨events, []⟩

/-- `triggerProcessing`, with its `processed` and `failed` answers. -/
def triggerProcessing (events : OutboxEvents) (now : Int) :
    AdapterState × Int × Int :=
  let pending (t : OutboxEvents) : Int :=
    t.rows.countP fun row => row.processedAt.isNone && row.failedAt.isNone
  let failed (t : OutboxEvents) : Int :=
    t.rows.countP fun row => row.processedAt.isNone && row.failedAt.isSome
  let after := processBatch env events now
  (after, pending events - pending after.events, failed after.events - failed events)

end

/-- The run leaves every row of another aggregate as it was and puts no event of one on the
bus. -/
structure NotificationOnly (before : OutboxEvents) (after : AdapterState) : Prop where
  frame : ∀ row ∈ before.rows, row.aggregateType ≠ "notification" →
    after.events.find? row.eventId = some row
  silent : ∀ x ∈ after.sent, ∀ row ∈ before.rows, row.eventId = x.1 →
    row.aggregateType = "notification"

/-- The table after a batch: every row of it is written back from its snapshot, one after another. -/
theorem events_foldl_processEvent (env : AdapterEnv) (batch : List OutboxRow) (s : AdapterState) :
    (batch.foldl (processEvent env) s).events
      = s.events.modifyEach batch (·.eventId)
          (fun row => notificationWriteBack row (env.clock row) (env.dispatchEvent row))
          fun row => (notificationWriteBack_keepsIdentity row _ _).eventId := by
  induction batch generalizing s with
  | nil => rfl
  | cons row rows ih =>
    rw [List.foldl_cons, ih]
    rfl

theorem mem_sent_foldl {env : AdapterEnv} {batch : List OutboxRow} {s : AdapterState}
    {x : String × NotificationSent} (h : x ∈ (batch.foldl (processEvent env) s).sent) :
    x ∈ s.sent ∨ ∃ row ∈ batch, row.eventId = x.1 := by
  induction batch generalizing s with
  | nil => exact .inl h
  | cons row rows ih =>
    rcases ih h with hold | ⟨r, hr, he⟩
    · simp only [processEvent] at hold
      split at hold
      · rcases List.mem_append.mp hold with hold | hnew
        · exact .inl hold
        · exact .inr ⟨row, List.mem_cons_self .., by rw [List.mem_singleton.mp hnew]⟩
      · exact .inl hold
    · exact .inr ⟨r, List.mem_cons_of_mem row hr, he⟩

theorem notificationWriteBack_attemptCount (snapshot row : OutboxRow) (at_ : Int) (d : Delivery) :
    (notificationWriteBack snapshot at_ d row).attemptCount = snapshot.attemptCount + 1 := by
  cases d <;> rfl

/-- **One batch touches the other aggregates exactly when it holds a row of theirs.** -/
theorem processBatch_notificationOnly_iff (env : AdapterEnv) (events : OutboxEvents) (now : Int) :
    NotificationOnly events (processBatch env events now) ↔
      ∀ row ∈ notification.batch events now, row.aggregateType = "notification" := by
  constructor
  · intro h row hrow
    by_contra hne
    have hmem := (mem_of_mem_poll hrow).1
    have hsame := h.frame row hmem hne
    -- the write-back has counted the attempt
    have hself : (processBatch env events now).events.find? row.eventId
        = some (notificationWriteBack row (env.clock row) (env.dispatchEvent row) row) := by
      have hn : ((notification.batch events now).map (·.eventId)).Nodup :=
        nodup_poll events _ 100
      rw [processBatch, events_foldl_processEvent, find?_modifyEach_of_mem hn hrow,
        find?_of_mem hmem]
      rfl
    rw [hself, Option.some.injEq] at hsame
    have hcount := congrArg OutboxRow.attemptCount hsame
    rw [notificationWriteBack_attemptCount] at hcount
    omega
  · intro h
    refine ⟨?_, ?_⟩
    · intro row hrow hne
      rw [processBatch, events_foldl_processEvent, find?_modifyEach_of_forall_ne ?_]
      · exact find?_of_mem hrow
      · intro r hr he
        have hsame : r = row := eq_of_key_eq (mem_of_mem_poll hr).1 hrow he
        exact hne (hsame ▸ h r hr)
    · intro x hx row hrow he
      rcases mem_sent_foldl hx with hnil | ⟨r, hr, hre⟩
      · cases hnil
      · have hsame : r = row :=
          eq_of_key_eq (mem_of_mem_poll hr).1 hrow (hre.trans he.symm)
        exact hsame ▸ h r hr

/-! ## Nine processors on one table -/

/-- A row a processor holds in memory: the snapshot it selected, the start of its run, and the
outcome of the delivery once there is one. -/
structure Job where
  processor : Processor
  row : OutboxRow
  startedAt : Int
  result : Option Delivery

def Job.delivered (job : Job) (d : Delivery) : Job := { job with result := some d }

/-- The table, the jobs under way, the `processedInRun` set of the tournament processor and what
the notification adapter has put on its bus. -/
structure System where
  events : OutboxEvents
  jobs : List Job
  processedInRun : List String
  sent : List (String × NotificationSent)

def System.start (events : OutboxEvents) : System := ⟨events, [], [], []⟩

inductive Action where
  | write (e : NewEvent)
  | select (p : Processor) (now : Int)
  | dispatch (i : Nat) (out : Delivery) (at_ : Int)
  | settle (i : Nat) (at_ : Int)

/-- What the environment fixes: the settings of `auth`, and whether the notification adapter got
a bus. -/
structure OutboxConfig where
  auth : AuthSecurityConfig
  notificationBus : Bool

/-- The outcome of the code behind a dispatch; without a bus the adapter throws on its own. -/
def OutboxConfig.outcome (config : OutboxConfig) (p : Processor) (out : Delivery) : Delivery :=
  if p = .notification ∧ config.notificationBus = false then
    .error (.error "NotificationDomainEventBus is not available for outbox dispatch")
  else out

def tournamentDone : Delivery → Bool
  | .ok () => true
  | .error e => tournamentIdempotencyConflict e

/-- One step; a job is settled once, after its delivery. -/
def System.step (config : OutboxConfig) (s : System) : Action → Option System
  | .write e => some { s with events := insertEvent s.events e }
  | .select p now =>
    some { s with jobs := s.jobs ++ (p.batch s.events now).map fun row => ⟨p, row, now, none⟩ }
  | .dispatch i out at_ =>
    match s.jobs[i]? with
    | none => none
    | some job =>
      match job.result with
      | some _ => none
      | none =>
        if job.processor = .tournament ∧ job.row.eventId ∈ s.processedInRun then
          -- already handled by this instance: `continue`
          some { s with jobs := s.jobs.eraseIdx i }
        else
          let d := job.processor.dispatch job.row (config.outcome job.processor out)
          some { s with
            jobs := s.jobs.set i (job.delivered d)
            sent := if job.processor = .notification ∧ config.notificationBus then
                s.sent ++ [(job.row.eventId, notificationSent job.row at_)]
              else s.sent }
  | .settle i at_ =>
    match s.jobs[i]? with
    | none => none
    | some job =>
      match job.result with
      | none => none
      | some d =>
        some { s with
          events := s.events.modify job.row.eventId
            (job.processor.writeBack config.auth job.row job.startedAt at_ d)
            (keepsIdentity config.auth job.row job.startedAt at_ d _).eventId
          jobs := s.jobs.eraseIdx i
          processedInRun := if job.processor = .tournament ∧ tournamentDone d then
              job.row.eventId :: s.processedInRun
            else s.processedInRun }

/-! ## Ownership -/

def Processor.aggregates : Processor → List String
  | .notification => ["notification"]
  | .attempt => ["attempt"]
  | .ranking => ["ranking"]
  | .coin => ["coin"]
  | .tournament => ["tournament"]
  | .achievement => ["Achievement"]
  | .review => ["review"]
  | .dailyChallenge => ["daily_challenge"]
  | .auth => ["password_reset", "account", "session", "oauth_account", "oauth_login"]

/-- The rows the processor is for. -/
def Processor.Owns (p : Processor) (row : OutboxRow) : Prop := row.aggregateType ∈ p.aggregates

/-- A foreign row that `auth` only puts off: it does not dispatch it, does not take its own error
for a duplicate, and has attempts left. -/
structure PutOffByAuth (config : AuthSecurityConfig) (row : OutboxRow) : Prop where
  unsupported : authKey row ∉ authDispatchKeys
  notConflict : conflictMessage (unsupportedKey row) = false
  attemptsLeft : row.attemptCount + 1 < config.outboxMaxRetries

def PollsOwn (config : OutboxConfig) (s : System) : Action → Prop
  | .select .notification now =>
    ∀ row ∈ notification.batch s.events now, row.aggregateType = "notification"
  | .select .auth now =>
    ∀ row ∈ auth.batch s.events now,
      auth.Owns row ∨ PutOffByAuth config.auth row
  | _ => True

structure JobOk (config : OutboxConfig) (events : OutboxEvents) (job : Job) : Prop where
  present : ∃ row, events.find? job.row.eventId = some row ∧
    row.aggregateType = job.row.aggregateType
  owned : job.processor.Owns job.row ∨
    (job.processor = .auth ∧ PutOffByAuth config.auth job.row)
  dispatched : ∀ d, job.result = some d → ∃ out, d = job.processor.dispatch job.row out

structure SystemOk (config : OutboxConfig) (s : System) : Prop where
  jobs : ∀ job ∈ s.jobs, JobOk config s.events job
  sent : ∀ x ∈ s.sent, ∃ row, s.events.find? x.1 = some row ∧ row.aggregateType = "notification"

def RowsKept (t t' : OutboxEvents) : Prop :=
  ∀ id row, t.find? id = some row →
    ∃ row', t'.find? id = some row' ∧ row'.aggregateType = row.aggregateType

theorem insertEvent_find? {events : OutboxEvents} {e : NewEvent} {row : OutboxRow}
    (h : row ∈ events.rows) : (insertEvent events e).find? row.eventId = some row := by
  unfold insertEvent
  split
  · exact find?_of_mem h
  · cases hins : events.insert? e.row with
    | none => exact find?_of_mem h
    | some t =>
      have hne : e.row.eventId ≠ row.eventId := fun he => by
        have hfree := find?_of_insert? hins
        rw [he, find?_of_mem h] at hfree
        cases hfree
      rw [Option.getD_some, find?_insert? hins, if_neg hne]
      exact find?_of_mem h

theorem rowsKept_insertEvent (events : OutboxEvents) (e : NewEvent) :
    RowsKept events (insertEvent events e) := by
  intro id row hrow
  have hkept := insertEvent_find? (e := e) (mem_of_find? hrow)
  rw [key_of_find? hrow] at hkept
  exact ⟨row, hkept, rfl⟩

theorem rowsKept_modify {events : OutboxEvents} {id : String} (h : KeepsIdentity f) :
    RowsKept events (events.modify id f h.eventId) := by
  intro j row hrow
  rw [find?_modify]
  by_cases hj : j = id
  · rw [if_pos hj, ← hj, hrow]
    exact ⟨f row, rfl, h.aggregateType row⟩
  · rw [if_neg hj]
    exact ⟨row, hrow, rfl⟩

variable {config : OutboxConfig} {s s' : System}

theorem JobOk.of_rowsKept {t t' : OutboxEvents} {job : Job} (h : JobOk config t job)
    (hk : RowsKept t t') : JobOk config t' job := by
  obtain ⟨row, hrow, hagg⟩ := h.present
  obtain ⟨row', hrow', hagg'⟩ := hk _ _ hrow
  exact ⟨⟨row', hrow', hagg'.trans hagg⟩, h.owned, h.dispatched⟩

theorem owns_of_pendingWhere {p : Processor} {now : Int} {row : OutboxRow}
    (hn : p ≠ .notification) (ha : p ≠ .auth) (h : p.pendingWhere now row = true) :
    p.Owns row := by
  cases p with
  | notification => exact absurd rfl hn
  | auth => exact absurd rfl ha
  | attempt | ranking | coin | achievement | dailyChallenge =>
    simp only [pendingWhere, BaseOutboxProcessor.buildPendingWhere, Bool.and_eq_true,
      beq_iff_eq] at h
    exact List.mem_singleton.mpr h.1.1
  | tournament =>
    simp only [pendingWhere, Bool.and_eq_true, beq_iff_eq] at h
    exact List.mem_singleton.mpr h.1
  | review =>
    simp only [pendingWhere, Bool.and_eq_true, beq_iff_eq] at h
    exact List.mem_singleton.mpr h.1.1

/-! ## One step -/

theorem step_dispatch {i : Nat} {out : Delivery} {at_ : Int}
    (h : s.step config (.dispatch i out at_) = some s') :
    ∃ job, s.jobs[i]? = some job ∧ s'.events = s.events ∧
      ((s'.jobs = s.jobs.eraseIdx i ∧ s'.sent = s.sent) ∨
        (s'.jobs = s.jobs.set i (job.delivered
            (job.processor.dispatch job.row (config.outcome job.processor out))) ∧
          (s'.sent = s.sent ∨ job.processor = .notification ∧
            s'.sent = s.sent ++ [(job.row.eventId, notificationSent job.row at_)]))) := by
  simp only [System.step] at h
  cases hjob : s.jobs[i]? with
  | none => rw [hjob] at h; cases h
  | some job =>
    rw [hjob] at h
    dsimp only at h
    cases hres : job.result with
    | some d => rw [hres] at h; cases h
    | none =>
      rw [hres] at h
      dsimp only at h
      split at h
      · cases h
        exact ⟨job, rfl, rfl, .inl ⟨rfl, rfl⟩⟩
      · cases h
        refine ⟨job, rfl, rfl, .inr ⟨rfl, ?_⟩⟩
        dsimp only
        split
        · rename_i hn
          exact .inr ⟨hn.1, rfl⟩
        · exact .inl rfl

theorem step_settle {i : Nat} {at_ : Int} (h : s.step config (.settle i at_) = some s') :
    ∃ job d, s.jobs[i]? = some job ∧ job.result = some d ∧
      s'.events = s.events.modify job.row.eventId
        (job.processor.writeBack config.auth job.row job.startedAt at_ d)
        (keepsIdentity config.auth job.row job.startedAt at_ d _).eventId ∧
      s'.jobs = s.jobs.eraseIdx i ∧ s'.sent = s.sent := by
  simp only [System.step] at h
  cases hjob : s.jobs[i]? with
  | none => rw [hjob] at h; cases h
  | some job =>
    rw [hjob] at h
    dsimp only at h
    cases hres : job.result with
    | none => rw [hres] at h; cases h
    | some d =>
      rw [hres] at h
      cases h
      exact ⟨job, d, rfl, hres, rfl, rfl, rfl⟩

theorem SystemOk.of_rowsKept (h : SystemOk config s) (hk : RowsKept s.events s'.events)
    (hj : ∀ job ∈ s'.jobs, job ∈ s.jobs) (hsent : s'.sent = s.sent) : SystemOk config s' := by
  refine ⟨fun job hjob => (h.jobs job (hj job hjob)).of_rowsKept hk, ?_⟩
  intro x hx
  rw [hsent] at hx
  obtain ⟨row, hrow, hagg⟩ := h.sent x hx
  obtain ⟨row', hrow', hagg'⟩ := hk _ _ hrow
  exact ⟨row', hrow', hagg'.trans hagg⟩

theorem rowsKept_refl (t : OutboxEvents) : RowsKept t t := fun _ row h => ⟨row, h, rfl⟩

theorem SystemOk.select (h : SystemOk config s) {p : Processor} {now : Int}
    (hp : PollsOwn config s (.select p now)) :
    SystemOk config { s with
      jobs := s.jobs ++ (p.batch s.events now).map fun row => ⟨p, row, now, none⟩ } := by
  refine ⟨?_, h.sent⟩
  intro job hjob
  rcases List.mem_append.mp hjob with hold | hnew
  · exact h.jobs job hold
  · obtain ⟨row, hrow, rfl⟩ := List.mem_map.mp hnew
    obtain ⟨hmem, hwhere⟩ := mem_of_mem_poll hrow
    refine ⟨⟨row, find?_of_mem hmem, rfl⟩, ?_, fun d hd => nomatch hd⟩
    by_cases hn : p = .notification
    · subst hn
      exact .inl (List.mem_singleton.mpr (hp row hrow))
    · by_cases ha : p = .auth
      · subst ha
        exact (hp row hrow).imp_right fun hput => ⟨rfl, hput⟩
      · exact .inl (owns_of_pendingWhere hn ha hwhere)

theorem JobOk.notification {t : OutboxEvents} {job : Job} (h : JobOk config t job)
    (hp : job.processor = .notification) :
    ∃ row, t.find? job.row.eventId = some row ∧ row.aggregateType = "notification" := by
  obtain ⟨row, hrow, hagg⟩ := h.present
  refine ⟨row, hrow, hagg.trans ?_⟩
  rcases h.owned with howns | ⟨hauth, -⟩
  · rw [hp] at howns
    exact List.mem_singleton.mp howns
  · rw [hp] at hauth
    cases hauth

/-- **Every step keeps the invariant**, when the polls keep to their own. -/
theorem SystemOk.step {a : Action} (h : SystemOk config s) (hp : PollsOwn config s a)
    (hs : s.step config a = some s') : SystemOk config s' := by
  cases a with
  | write e =>
    cases hs
    exact h.of_rowsKept (rowsKept_insertEvent s.events e) (fun _ hj => hj) rfl
  | select p now =>
    cases hs
    exact h.select hp
  | dispatch i out at_ =>
    obtain ⟨job, hjob, hev, ⟨hjobs, hsent⟩ | ⟨hjobs, hsent⟩⟩ := step_dispatch hs
    · refine h.of_rowsKept (hev ▸ rowsKept_refl _) ?_ hsent
      intro j hj
      rw [hjobs] at hj
      exact List.mem_of_mem_eraseIdx hj
    · have hok := h.jobs job (List.mem_of_getElem? hjob)
      refine ⟨?_, ?_⟩
      · intro j hj
        rw [hjobs] at hj
        rw [hev]
        rcases List.mem_or_eq_of_mem_set hj with hold | rfl
        · exact h.jobs j hold
        · refine ⟨hok.present, hok.owned, fun d hd => ⟨_, (Option.some.inj hd).symm⟩⟩
      · intro x hx
        rw [hev]
        rcases hsent with hsent | ⟨hnot, hsent⟩
        · rw [hsent] at hx
          exact h.sent x hx
        · rw [hsent] at hx
          rcases List.mem_append.mp hx with hold | hnew
          · exact h.sent x hold
          · rw [List.mem_singleton.mp hnew]
            exact hok.notification hnot
  | settle i at_ =>
    obtain ⟨job, d, -, -, hev, hjobs, hsent⟩ := step_settle hs
    refine h.of_rowsKept ?_ ?_ hsent
    · rw [hev]
      exact rowsKept_modify (keepsIdentity ..)
    · intro j hj
      rw [hjobs] at hj
      exact List.mem_of_mem_eraseIdx hj

/-! ## Isolation -/

def System.actor (s : System) : Action → Option Processor
  | .write _ => none
  | .select p _ => some p
  | .dispatch i _ _ => s.jobs[i]?.map (·.processor)
  | .settle i _ => s.jobs[i]?.map (·.processor)

/-- What a step may do to the rows of the other aggregates: the notification adapter does
nothing to them and puts none of them on its bus, and whoever writes their `processed_at` or
`failed_at` is their own processor, after its delivery. -/
structure Isolated (s : System) (a : Action) (s' : System) : Prop where
  frame : s.actor a = some .notification → ∀ row ∈ s.events.rows,
    row.aggregateType ≠ "notification" → s'.events.find? row.eventId = some row
  silent : ∀ x ∈ s'.sent, ∃ row, s'.events.find? x.1 = some row ∧
    row.aggregateType = "notification"
  owner : ∀ row ∈ s.events.rows, row.aggregateType ≠ "notification" →
    ∀ row', s'.events.find? row.eventId = some row' →
      (row'.processedAt ≠ row.processedAt ∨ row'.failedAt ≠ row.failedAt) →
      ∃ i at_ job out, a = .settle i at_ ∧ s.jobs[i]? = some job ∧
        job.row.eventId = row.eventId ∧ job.processor.Owns row ∧
        job.result = some (job.processor.dispatch job.row out)

theorem authWriteBack_of_putOff {config : AuthSecurityConfig} {snapshot : OutboxRow}
    (h : PutOffByAuth config snapshot) (out : Delivery) (now : Int) (row : OutboxRow) :
    (authWriteBack config snapshot now (auth.dispatch snapshot out) row).processedAt
        = row.processedAt ∧
      (authWriteBack config snapshot now (auth.dispatch snapshot out) row).failedAt
        = row.failedAt := by
  have hlt : ¬ snapshot.attemptCount + 1 ≥ config.outboxMaxRetries := by
    have := h.attemptsLeft
    omega
  have hnot : isIdempotencyConflict (.error (unsupportedKey snapshot)) = false := h.notConflict
  simp only [dispatch, h.unsupported, if_false, authWriteBack, hnot,
    Bool.false_eq_true, hlt, unlessProcessed]
  split <;> exact ⟨rfl, rfl⟩

theorem SystemOk.isolated {a : Action} (h : SystemOk config s) (hp : PollsOwn config s a)
    (hs : s.step config a = some s') : Isolated s a s' := by
  have hsilent := (h.step hp hs).sent
  -- a step that leaves the rows alone
  have hquiet : (∀ row ∈ s.events.rows, s'.events.find? row.eventId = some row) →
      Isolated s a s' := fun hsame =>
    ⟨fun _ row hrow _ => hsame row hrow, hsilent, fun row hrow _ row' hrow' hchg => by
      rw [hsame row hrow, Option.some.injEq] at hrow'
      subst hrow'
      rcases hchg with hc | hc <;> exact absurd rfl hc⟩
  cases a with
  | write e => cases hs; exact hquiet fun row hrow => insertEvent_find? hrow
  | select p now => cases hs; exact hquiet fun row hrow => find?_of_mem hrow
  | dispatch i out at_ =>
    obtain ⟨job, -, hev, -⟩ := step_dispatch hs
    exact hquiet fun row hrow => by rw [hev]; exact find?_of_mem hrow
  | settle i at_ =>
    obtain ⟨job, d, hjob, hres, hev, -, -⟩ := step_settle hs
    have hok := h.jobs job (List.mem_of_getElem? hjob)
    obtain ⟨out, rfl⟩ := hok.dispatched d hres
    obtain ⟨target, htarget, hagg⟩ := hok.present
    refine ⟨?_, hsilent, ?_⟩
    · -- the adapter's own job is on a notification row
      intro hactor row hrow hne
      have hproc : job.processor = .notification := by
        simpa [System.actor, hjob] using hactor
      obtain ⟨target, htarget, hagg⟩ := hok.notification hproc
      have hid : row.eventId ≠ job.row.eventId := fun he => hne (by
        rw [← he, find?_of_mem hrow, Option.some.injEq] at htarget
        rw [htarget]
        exact hagg)
      rw [hev, find?_modify_ne hid]
      exact find?_of_mem hrow
    · intro row hrow hne row' hrow' hchg
      by_cases hid : row.eventId = job.row.eventId
      · have hsame : row = target := by
          rw [← hid, find?_of_mem hrow, Option.some.injEq] at htarget
          exact htarget
        refine ⟨i, at_, job, out, rfl, hjob, hid.symm, ?_, hres⟩
        rcases hok.owned with howns | ⟨hauth, hput⟩
        · rw [Owns, hsame, hagg]
          exact howns
        · -- `auth` has put the row off, so its stamps did not change
          rw [hev, find?_modify, if_pos hid, ← hid, find?_of_mem hrow,
            Option.map_some, Option.some.injEq] at hrow'
          rw [hauth] at hrow'
          obtain ⟨hproc, hfail⟩ := authWriteBack_of_putOff hput out job.startedAt row
          rw [← hrow'] at hchg
          rcases hchg with hc | hc
          · exact absurd hproc hc
          · exact absurd hfail hc
      · rw [hev, find?_modify_ne hid, find?_of_mem hrow, Option.some.injEq] at hrow'
        subst hrow'
        rcases hchg with hc | hc <;> exact absurd rfl hc

theorem start_systemOk (config : OutboxConfig) (events : OutboxEvents) :
    SystemOk config (System.start events) :=
  ⟨fun _ hj => absurd hj List.not_mem_nil, fun _ hx => absurd hx List.not_mem_nil⟩

/-- **The notification processor keeps to notification events** in one run of either entry point
exactly when its batch holds nothing else; and in every interleaving of the nine processors whose
greedy polls keep to their own, a row is settled by its owner only. -/
theorem notification_isolation (config : OutboxConfig) (env : AdapterEnv) (events : OutboxEvents)
    (now : Int) (acts : List Action) :
    (NotificationOnly events (processOutbox env events now) ↔
      env.runs = false ∨
        ∀ row ∈ Processor.notification.batch events now, row.aggregateType = "notification") ∧
    (NotificationOnly events (triggerProcessing env events now).1 ↔
      ∀ row ∈ Processor.notification.batch events now, row.aggregateType = "notification") ∧
    (Along (System.step config) (PollsOwn config) (System.start events) acts →
      EachStep (System.step config) Isolated (System.start events) acts) := by
  refine ⟨?_, processBatch_notificationOnly_iff env events now, ?_⟩
  · unfold processOutbox
    cases hruns : env.runs with
    | false =>
      refine ⟨fun _ => .inl rfl, fun _ => ⟨?_, ?_⟩⟩
      · intro row hrow _
        exact Table.find?_of_mem hrow
      · intro x hx
        exact absurd hx List.not_mem_nil
    | true =>
      rw [if_pos rfl, processBatch_notificationOnly_iff]
      exact ⟨.inr, fun h => h.resolve_left (by decide)⟩
  · intro hpolls pre a s s' hp hs hstep
    have hpre : pre <+: acts := (List.prefix_append pre [a]).trans hp
    have hok : SystemOk config s := (hpolls.of_prefix hpre).invariant
      (fun _ _ _ h hpoll hst => h.step hpoll hst) hs (start_systemOk config events)
    exact hok.isolated (along_iff.mp hpolls pre a hp s hs) hstep

def coinAdded : NewEvent :=
  { eventId := "01900000-0000-7000-8000-00000000000c", aggregateType := "coin",
    eventType := "coin.added", payload := [("userId", .str "u1"), ("amount", .num 5)],
    createdAt := 0, nextAttemptAt := 0, idempotencyKey := some "coin:1", correlationId := none }

def notificationWritten : NewEvent :=
  { eventId := "01900000-0000-7000-8000-00000000000a", aggregateType := "notification",
    eventType := "notification.sent", payload := [("notificationId", .str "n1")],
    createdAt := 0, nextAttemptAt := 0, idempotencyKey := none, correlationId := none }

def openEnv : AdapterEnv :=
  { isShuttingDown := false, lock := some true, bus := some fun _ => .ok (), clock := fun _ => 5 }

theorem notification_isolation_on_its_own :
    NotificationOnly (insertEvent (Table.empty _) notificationWritten)
        (processOutbox openEnv (insertEvent (Table.empty _) notificationWritten) 0) ∧
      ∃ s s', exec (System.step ⟨⟨8, 30⟩, true⟩)
          (System.start (insertEvent (Table.empty _) notificationWritten))
          [.select .notification 0, .dispatch 0 (.ok ()) 5] = some s ∧
        s.step ⟨⟨8, 30⟩, true⟩ (.settle 0 5) = some s' ∧ Isolated s (.settle 0 5) s' := by
  have h := notification_isolation ⟨⟨8, 30⟩, true⟩ openEnv
    (insertEvent (Table.empty _) notificationWritten) 0
    [.select .notification 0, .dispatch 0 (.ok ()) 5, .settle 0 5]
  have hpolls : Along (System.step ⟨⟨8, 30⟩, true⟩) (PollsOwn ⟨⟨8, 30⟩, true⟩)
      (System.start (insertEvent (Table.empty _) notificationWritten))
      [.select .notification 0, .dispatch 0 (.ok ()) 5, .settle 0 5] :=
    ⟨by unfold PollsOwn; decide, fun _ _ => ⟨trivial, fun _ _ => ⟨trivial, fun _ _ => trivial⟩⟩⟩
  exact ⟨h.1.mpr (.inr (by decide)), _, _, rfl, rfl,
    h.2.2 hpolls [.select .notification 0, .dispatch 0 (.ok ()) 5] (.settle 0 5) _ _
      (List.prefix_refl _) rfl rfl⟩

/-- The adapter takes a coin event, puts it on its own bus and marks it processed; the coin
processor polls an empty queue afterwards. -/
theorem coin_event_lost_to_notifications :
    ¬ NotificationOnly (insertEvent (Table.empty _) coinAdded)
        (processOutbox openEnv (insertEvent (Table.empty _) coinAdded) 0) ∧
      ((processOutbox openEnv (insertEvent (Table.empty _) coinAdded) 0).events.find?
        coinAdded.eventId).map (·.processedAt) = some (some 5) ∧
      (processOutbox openEnv (insertEvent (Table.empty _) coinAdded) 0).sent.map (·.1)
        = [coinAdded.eventId] ∧
      Processor.coin.batch
        (processOutbox openEnv (insertEvent (Table.empty _) coinAdded) 0).events 60000 = [] := by
  refine ⟨?_, by decide, by decide, by decide⟩
  intro h
  have hrow := h.silent (coinAdded.eventId, notificationSent coinAdded.row 5) (by decide)
    coinAdded.row (by decide) rfl
  exact absurd hrow (by decide)

end QuizBackend.Outbox
