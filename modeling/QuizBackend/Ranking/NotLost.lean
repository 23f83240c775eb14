import QuizBackend.Ranking.XpAdded

/-!
# Earned XP and the two deliveries

An attempt that has earned XP has an outbox row, and once that row is processed the outbox is done
with it. Whether the XP has been counted by then is not asked: publishing on the bus succeeds without
a subscriber, the handler catches what `processXpEvent` throws, and a call that is turned away by the
claim returns as if it had worked, whoever holds the claim and whatever comes of it. The breaker's
fallback for the claim is the value that means *duplicate*.

So a processed row owes its XP to what is under way. An event is *safe* when it has been counted, or a
call is past its claim, or a delivery by the bus is still to make its claim (`Safe`), and a row is
*published* from the moment its dispatch has succeeded (`Published`). Every step that takes a call out
of the system has to leave the published events safe; `Upheld` says, step by step, what that takes.
-/

namespace QuizBackend.Ranking

open Lib Outbox Attempt Processor XpSystem Table

/-! ## What a write-back leaves alone -/

structure SameContent (row row' : OutboxRow) : Prop where
  aggregateType : row.aggregateType = row'.aggregateType
  eventType : row.eventType = row'.eventType
  payload : row.payload = row'.payload

theorem SameContent.trans {a b c : OutboxRow} (h : SameContent a b) (h' : SameContent b c) :
    SameContent a c :=
  ⟨h.aggregateType.trans h'.aggregateType, h.eventType.trans h'.eventType,
    h.payload.trans h'.payload⟩

variable {row row' : OutboxRow} {e : NewEvent} {now : Int} {i n : Nat} {d : XpDelivery}

theorem SameContent.of_content (h : row.content = row'.content) : SameContent row row' :=
  ⟨congrArg (·.2.1) h, congrArg (·.2.2.1) h, congrArg (·.2.2.2) h⟩

theorem Processor.sameContent (config : AuthSecurityConfig) (snapshot : OutboxRow) (now at_ : Int)
    (d : Delivery) (p : Processor) (row : OutboxRow) :
    SameContent (p.writeBack config snapshot now at_ d row) row :=
  .of_content (p.content_writeBack config snapshot now at_ d row)

theorem parse_congr (h : row.payload = row'.payload) :
    parseAttemptXpOutboxPayload row = parseAttemptXpOutboxPayload row' := by
  have hfield : ∀ k, row.field k = row'.field k := by
    intro k
    rw [OutboxRow.field, OutboxRow.field, h]
  have htypeof : ∀ k, typeofField row k = typeofField row' k := by
    intro k
    rw [typeofField, typeofField, hfield]
  simp only [parseAttemptXpOutboxPayload, requireString, requireNumber, optionalString,
    requireTimestamp, payloadInvalid, hfield, htypeof]

/-! ## Published and safe -/

/-- The idempotency key of an `attempt.xp_to_publish` row. -/
def xpKey (row : OutboxRow) : Option String :=
  (parseAttemptXpOutboxPayload row).toOption.map (·.idempotencyKey)

def settles : Delivery → Bool
  | .ok () => true
  | .error e => isIdempotencyConflict e

def Published (o : Outbox.System) (key : String) : Prop :=
  (∃ row ∈ o.events.rows, isXpRow row = true ∧ row.processedAt.isSome = true ∧
    xpKey row = some key) ∨
  (∃ job ∈ o.jobs, isXpRow job.row = true ∧ job.processor = .attempt ∧
    (∃ d, job.result = some d ∧ settles d = true) ∧ xpKey job.row = some key)

def XpSystem.Credited (s : XpSystem) (key : String) : Prop :=
  ∃ event ∈ s.credits, event.idempotencyKey = key

def XpSystem.PastClaim (s : XpSystem) (key : String) : Prop :=
  ∃ d ∈ s.deliveries, d.phase = .claimed ∧ d.event.idempotencyKey = key

def XpSystem.ToBeClaimed (s : XpSystem) (key : String) : Prop :=
  ∃ d ∈ s.deliveries, d.phase = .received ∧ d.source = .outbox ∧ d.event.idempotencyKey = key

/-- The grant is credited, or still on its way. -/
def XpSystem.Safe (s : XpSystem) (key : String) : Prop :=
  s.Credited key ∨ s.PastClaim key ∨ s.ToBeClaimed key

/-- **The property**: once its row is processed and no call is under way with its key, the XP of an
attempt has been counted, and the counters hold what has been counted. -/
structure XpNotLost (start s : XpSystem) : Prop where
  counted : ∀ row ∈ s.outbox.events.rows, isXpRow row = true → row.processedAt.isSome = true →
    ∃ event, parseAttemptXpOutboxPayload row = .ok event ∧
      ((∀ d ∈ s.deliveries, d.event.idempotencyKey ≠ event.idempotencyKey) → event ∈ s.credits)
  counter : ∀ userId,
    allTimeXp s.ranking userId = allTimeXp start.ranking userId + creditedXp s.credits userId

/-- What every step has to leave alone. The notification adapter takes no XP row; a dispatch that
settles its row reaches a subscriber; a delivery by the bus is turned away only when the event has
been counted or another call is past its claim; and the transaction of a published event goes
through. An event that has been counted needs nothing more. -/
def Upheld (s : XpSystem) : XpAction → Prop
  | .outbox (.select .notification now) _ =>
    ∀ row ∈ notification.batch s.outbox.events now, isXpRow row = false
  | .outbox (.dispatch i out _) subscribers => ∀ event, s.published i = some (.ok event) →
    settles out = true → 0 < subscribers ∨ s.Credited event.idempotencyKey
  | .claim i reply => ∀ d ∈ s.deliveries[i]?, d.source = .outbox →
    (tryClaimXp s.claims d.event.idempotencyKey reply).1 = false →
      s.Credited d.event.idempotencyKey ∨ s.PastClaim d.event.idempotencyKey
  | .transact i now _ fails => ∀ d ∈ s.deliveries[i]?, Published s.outbox d.event.idempotencyKey →
    s.Credited d.event.idempotencyKey ∨
      fails = false ∧ (xpStep s.ranking ⟨d.event.userId, d.event.amount, now⟩).isSome
  | _ => True

/-- Producers keep their contract: a key stands for one event. -/
def XpAction.Granted (grant : String → ExternalXpEarnedEvent) : XpAction → Prop
  | .complete _ p => grant (xpIdempotencyKey p.userId p.attemptId)
      = attemptXpEvent p.userId p.attemptId p.xpEarned
  | .deliver event _ => grant event.idempotencyKey = event
  | _ => True

/-! ## Rows and jobs -/

def ContentKept (t t' : OutboxEvents) : Prop :=
  ∀ id row, t.find? id = some row → ∃ row', t'.find? id = some row' ∧ SameContent row' row

structure XpRowOk (grant : String → ExternalXpEarnedEvent) (row : OutboxRow) : Prop where
  aggregateType : row.aggregateType = "attempt"
  parsed : ∃ event, parseAttemptXpOutboxPayload row = .ok event ∧
    validateXpEvent event = .ok () ∧ grant event.idempotencyKey = event

/-- A job works on a row of the table, an XP row is in the hands of its processor or of `auth`, its
processor has nothing else in hand, and the outcome of a dispatch is what `dispatch` makes of it. -/
structure XpJobOk (events : OutboxEvents) (job : Job) : Prop where
  present : ∃ row, events.find? job.row.eventId = some row ∧ SameContent row job.row
  taken : isXpRow job.row = true → job.processor = .attempt ∨ job.processor = .auth
  own : job.processor = .attempt → isXpRow job.row = true
  dispatched : ∀ d, job.result = some d → ∃ out, d = job.processor.dispatch job.row out

structure XpOutboxOk (grant : String → ExternalXpEarnedEvent) (o : Outbox.System) : Prop where
  rows : ∀ row ∈ o.events.rows, isXpRow row = true → XpRowOk grant row
  jobs : ∀ job ∈ o.jobs, XpJobOk o.events job

section Outbox

variable {grant : String → ExternalXpEarnedEvent} {o o' : Outbox.System} {config : OutboxConfig}
  {key : String}

theorem SameContent.isXpRow (h : SameContent row row') : isXpRow row = isXpRow row' := by
  unfold Ranking.isXpRow
  rw [h.eventType]

theorem SameContent.xpKey (h : SameContent row row') : xpKey row = xpKey row' := by
  unfold Ranking.xpKey
  rw [parse_congr h.payload]

theorem XpRowOk.congr (h : XpRowOk grant row') (hc : SameContent row row') : XpRowOk grant row := by
  refine ⟨hc.aggregateType.trans h.aggregateType, ?_⟩
  rw [parse_congr hc.payload]
  exact h.parsed

theorem contentKept_insertEvent (events : OutboxEvents) (e : NewEvent) :
    ContentKept events (insertEvent events e) := by
  intro id row hrow
  have hkept := insertEvent_find? (e := e) (mem_of_find? hrow)
  rw [key_of_find? hrow] at hkept
  exact ⟨row, hkept, rfl, rfl, rfl⟩

theorem contentKept_modify {events : OutboxEvents} {id : String} {f : OutboxRow → OutboxRow}
    {hf : ∀ row, (f row).eventId = row.eventId} (h : ∀ row, SameContent (f row) row) :
    ContentKept events (events.modify id f hf) := by
  intro j row hrow
  rw [find?_modify]
  by_cases hj : j = id
  · rw [if_pos hj, ← hj, hrow]
    exact ⟨f row, rfl, h row⟩
  · rw [if_neg hj]
    exact ⟨row, hrow, rfl, rfl, rfl⟩

theorem XpJobOk.of_kept {t t' : OutboxEvents} {job : Job} (h : XpJobOk t job)
    (hk : ContentKept t t') : XpJobOk t' job := by
  obtain ⟨row, hrow, hsame⟩ := h.present
  obtain ⟨row', hrow', hsame'⟩ := hk _ _ hrow
  exact ⟨⟨row', hrow', hsame'.trans hsame⟩, h.taken, h.own, h.dispatched⟩

theorem mem_insertEvent {events : OutboxEvents} (h : row ∈ (insertEvent events e).rows) :
    row ∈ events.rows ∨ row = e.row := by
  unfold insertEvent at h
  split at h
  · exact .inl h
  · cases hins : events.insert? e.row with
    | none =>
      rw [hins] at h
      exact .inl h
    | some t =>
      rw [hins, Option.getD_some, rows_of_insert? hins] at h
      exact (List.mem_append.mp h).imp_right List.mem_singleton.mp

/-! A row is written. -/

theorem XpOutboxOk.insert (h : XpOutboxOk grant o) (he : isXpRow e.row = true → XpRowOk grant e.row) :
    XpOutboxOk grant { o with events := insertEvent o.events e } := by
  refine ⟨?_, fun job hjob => (h.jobs job hjob).of_kept (contentKept_insertEvent _ _)⟩
  intro row hrow hxp
  rcases mem_insertEvent hrow with hold | rfl
  · exact h.rows row hold hxp
  · exact he hxp

theorem published_insert (h : Published { o with events := insertEvent o.events e } key) :
    Published o key := by
  rcases h with ⟨row, hrow, hxp, hprocessed, hkey⟩ | hjob
  · rcases mem_insertEvent hrow with hold | rfl
    · exact .inl ⟨row, hold, hxp, hprocessed, hkey⟩
    · cases hprocessed
  · exact .inr hjob

/-! A batch is selected. -/

theorem XpOutboxOk.select {p : Processor} (h : XpOutboxOk grant o)
    (hown : p = .notification → ∀ row ∈ p.batch o.events now, isXpRow row = false) :
    XpOutboxOk grant { o with
      jobs := o.jobs ++ (p.batch o.events now).map fun row => ⟨p, row, now, none⟩ } := by
  refine ⟨h.rows, ?_⟩
  intro job hjob
  rcases List.mem_append.mp hjob with hold | hnew
  · exact h.jobs job hold
  · obtain ⟨row, hrow, rfl⟩ := List.mem_map.mp hnew
    obtain ⟨hmem, hwhere⟩ := mem_of_mem_poll hrow
    refine ⟨⟨row, find?_of_mem hmem, rfl, rfl, rfl⟩, ?_, ?_, fun d hd => nomatch hd⟩
    · intro hxp
      show p = .attempt ∨ p = .auth
      by_cases hn : p = .notification
      · have hnot := hown hn row hrow
        have hxp : isXpRow row = true := hxp
        rw [hnot] at hxp
        cases hxp
      · by_cases ha : p = .auth
        · exact .inr ha
        · -- the others poll one aggregate, and this is the one of the attempts
          have howns := owns_of_pendingWhere hn ha hwhere
          unfold Owns at howns
          rw [(h.rows row hmem hxp).aggregateType] at howns
          refine .inl ?_
          cases p with
          | attempt => rfl
          | notification => exact absurd rfl hn
          | auth => exact absurd rfl ha
          | ranking | coin | tournament | achievement | review | dailyChallenge =>
            exact absurd howns (by decide)
    · rintro rfl
      simp only [pendingWhere, BaseOutboxProcessor.buildPendingWhere,
        attemptXpOutboxProcessor, Bool.and_eq_true] at hwhere
      exact hwhere.2

theorem published_select {p : Processor}
    (h : Published { o with jobs := o.jobs ++ (p.batch o.events now).map fun row => ⟨p, row, now, none⟩ } key) :
    Published o key := by
  rcases h with hrow | ⟨job, hjob, hxp, hp, ⟨d, hd, hsettles⟩, hkey⟩
  · exact .inl hrow
  · rcases List.mem_append.mp hjob with hold | hnew
    · exact .inr ⟨job, hold, hxp, hp, ⟨d, hd, hsettles⟩, hkey⟩
    · obtain ⟨row, -, rfl⟩ := List.mem_map.mp hnew
      cases hd

/-! A row is dispatched. -/

theorem XpOutboxOk.dispatch {out : Delivery} {at_ : Int} (h : XpOutboxOk grant o)
    (hstep : o.step config (.dispatch i out at_) = some o') : XpOutboxOk grant o' := by
  obtain ⟨job, hjob, hevents, ⟨hjobs, -⟩ | ⟨hjobs, -⟩⟩ := step_dispatch hstep
  · refine ⟨by rw [hevents]; exact h.rows, ?_⟩
    intro x hx
    rw [hjobs] at hx
    rw [hevents]
    exact h.jobs x (List.mem_of_mem_eraseIdx hx)
  · refine ⟨by rw [hevents]; exact h.rows, ?_⟩
    rw [hjobs, hevents]
    have hold := h.jobs job (List.mem_of_getElem? hjob)
    refine forall_mem_set h.jobs ⟨hold.present, hold.taken, hold.own, ?_⟩
    intro d hd
    exact ⟨_, (Option.some.inj hd).symm⟩

theorem published_dispatch {out : Delivery} {at_ : Int}
    (hstep : o.step config (.dispatch i out at_) = some o') (h : Published o' key) :
    Published o key ∨ ∃ job, o.jobs[i]? = some job ∧ isXpRow job.row = true ∧
      job.processor = .attempt ∧ settles out = true ∧ xpKey job.row = some key := by
  obtain ⟨job, hjob, hevents, hcases⟩ := step_dispatch hstep
  rcases h with ⟨row, hrow, hxp⟩ | ⟨x, hx, hxp, hp, ⟨d, hd, hsettles⟩, hkey⟩
  · rw [hevents] at hrow
    exact .inl (.inl ⟨row, hrow, hxp⟩)
  · rcases hcases with ⟨hjobs, -⟩ | ⟨hjobs, -⟩
    · rw [hjobs] at hx
      exact .inl (.inr ⟨x, List.mem_of_mem_eraseIdx hx, hxp, hp, ⟨d, hd, hsettles⟩, hkey⟩)
    · rw [hjobs] at hx
      rcases List.mem_or_eq_of_mem_set hx with hold | rfl
      · exact .inl (.inr ⟨x, hold, hxp, hp, ⟨d, hd, hsettles⟩, hkey⟩)
      · -- the attempt processor takes the outcome as it is
        have hp : job.processor = .attempt := hp
        have hd : some (job.processor.dispatch job.row (config.outcome job.processor out)) = some d :=
          hd
        have hout : config.outcome .attempt out = out := if_neg (by simp)
        rw [hp, hout, Option.some.injEq] at hd
        have hd : out = d := hd
        rw [← hd] at hsettles
        exact .inr ⟨job, hjob, hxp, hp, hsettles, hkey⟩

/-! An outcome is written back. -/

theorem XpOutboxOk.settle {at_ : Int} (h : XpOutboxOk grant o)
    (hstep : o.step config (.settle i at_) = some o') : XpOutboxOk grant o' := by
  obtain ⟨job, d, -, -, hevents, hjobs, -⟩ := step_settle hstep
  have hcontent := Processor.sameContent config.auth job.row job.startedAt at_ d job.processor
  refine ⟨?_, ?_⟩
  · intro row hrow hxp
    rw [hevents] at hrow
    obtain ⟨x, hx, rfl⟩ := mem_modify.mp hrow
    split at hxp
    · next hid =>
      rw [if_pos hid]
      rw [(hcontent x).isXpRow] at hxp
      exact (h.rows x hx hxp).congr (hcontent x)
    · next hid =>
      rw [if_neg hid]
      exact h.rows x hx hxp
  · intro x hx
    rw [hjobs] at hx
    rw [hevents]
    exact (h.jobs x (List.mem_of_mem_eraseIdx hx)).of_kept (contentKept_modify hcontent)

theorem processedAt_unlessProcessed (f : OutboxRow → OutboxRow)
    (hf : ∀ x, (f x).processedAt = x.processedAt)
    (h : (unlessProcessed f row).processedAt.isSome = true) : row.processedAt.isSome = true := by
  unfold unlessProcessed at h
  split at h
  · rwa [hf] at h
  · exact h

theorem processedAt_attempt {auth : AuthSecurityConfig} {snapshot : OutboxRow} {at_ : Int}
    {d : Delivery}
    (h : (attempt.writeBack auth snapshot now at_ d row).processedAt.isSome = true) :
    row.processedAt.isSome = true ∨ settles d = true := by
  cases d with
  | ok u => exact .inr rfl
  | error e =>
    cases hconflict : isIdempotencyConflict e with
    | true => exact .inr hconflict
    | false =>
      refine .inl ?_
      simp only [writeBack, BaseOutboxProcessor.writeBack, hconflict, Bool.false_eq_true,
        if_false] at h
      refine processedAt_unlessProcessed _ ?_ h
      intro x
      split <;> rfl

/-- The two texts `auth` makes of an aggregate and an event type. -/
def authTexts (aggregateType eventType : String) : String × String :=
  (s!"{aggregateType}:{eventType}",
    s!"Unsupported outbox event dispatcher key: {aggregateType}:{eventType}")

theorem authTexts_xp : (authTexts "attempt" "attempt.xp_to_publish").1 ∉ authDispatchKeys ∧
    conflictMessage (authTexts "attempt" "attempt.xp_to_publish").2 = false := by
  decide +kernel

theorem processedAt_auth {auth : AuthSecurityConfig} {snapshot : OutboxRow} {at_ : Int}
    {out : Delivery} (hxp : isXpRow snapshot = true) (hagg : snapshot.aggregateType = "attempt")
    (h : (Processor.auth.writeBack auth snapshot now at_ (Processor.auth.dispatch snapshot out)
      row).processedAt.isSome = true) :
    row.processedAt.isSome = true := by
  have htype : snapshot.eventType = "attempt.xp_to_publish" := by
    simpa [isXpRow] using hxp
  have hkey : authKey snapshot ∉ authDispatchKeys := by
    show (authTexts snapshot.aggregateType snapshot.eventType).1 ∉ authDispatchKeys
    rewrite [hagg, htype]
    exact authTexts_xp.1
  have hconflict : isIdempotencyConflict (.error (unsupportedKey snapshot)) = false := by
    show conflictMessage (authTexts snapshot.aggregateType snapshot.eventType).2 = false
    rewrite [hagg, htype]
    exact authTexts_xp.2
  simp only [Processor.dispatch, if_neg hkey, Processor.writeBack, authWriteBack, hconflict,
    Bool.false_eq_true, if_false] at h
  split at h
  · refine processedAt_unlessProcessed (setDlq _ now now _ _) ?_ h
    exact fun _ => rfl
  · refine processedAt_unlessProcessed (setRetry _ now _ _) ?_ h
    exact fun _ => rfl

theorem published_settle {at_ : Int} (hok : XpOutboxOk grant o)
    (hstep : o.step config (.settle i at_) = some o') (h : Published o' key) : Published o key := by
  obtain ⟨job, d, hjob, hresult, hevents, hjobs, -⟩ := step_settle hstep
  have hmem := List.mem_of_getElem? hjob
  rcases h with ⟨row, hrow, hxp, hprocessed, hkey⟩ | ⟨x, hx, hrest⟩
  · rw [hevents] at hrow
    obtain ⟨x, hx, rfl⟩ := mem_modify.mp hrow
    by_cases hid : x.eventId = job.row.eventId
    · rw [if_pos hid] at hxp hprocessed hkey
      have hcontent := Processor.sameContent config.auth job.row job.startedAt at_ d job.processor x
      rw [hcontent.isXpRow] at hxp
      rw [hcontent.xpKey] at hkey
      -- the row of the table is the row of the job
      have hjobok := hok.jobs job hmem
      obtain ⟨y, hy, hsame⟩ := hjobok.present
      rw [← hid, find?_of_mem hx, Option.some.injEq] at hy
      subst hy
      have hjobxp : isXpRow job.row = true := hsame.isXpRow ▸ hxp
      obtain ⟨out, hout⟩ := hjobok.dispatched d hresult
      rcases hjobok.taken hjobxp with hp | hp
      · rw [hp] at hprocessed
        rcases processedAt_attempt hprocessed with hstamped | hsettles
        · exact .inl ⟨x, hx, hxp, hstamped, hkey⟩
        · exact .inr ⟨job, hmem, hjobxp, hp, ⟨d, hresult, hsettles⟩, hsame.xpKey ▸ hkey⟩
      · rw [hp] at hprocessed hout
        rw [hout] at hprocessed
        have hagg : job.row.aggregateType = "attempt" :=
          hsame.aggregateType ▸ (hok.rows x hx hxp).aggregateType
        exact .inl ⟨x, hx, hxp, processedAt_auth hjobxp hagg hprocessed, hkey⟩
    · rw [if_neg hid] at hxp hprocessed hkey
      exact .inl ⟨x, hx, hxp, hprocessed, hkey⟩
  · rw [hjobs] at hx
    exact .inr ⟨x, List.mem_of_mem_eraseIdx hx, hrest⟩

end Outbox

/-! ## One step -/

/-- What was published is credited or under way, and is what was granted. -/
structure Lossless (grant : String → ExternalXpEarnedEvent) (s : XpSystem) : Prop where
  outbox : XpOutboxOk grant s.outbox
  deliveries : ∀ d ∈ s.deliveries, grant d.event.idempotencyKey = d.event
  credits : ∀ event ∈ s.credits, grant event.idempotencyKey = event
  safe : ∀ key, Published s.outbox key → s.Safe key

section OneStep

variable {grant : String → ExternalXpEarnedEvent} {s s' : XpSystem} {config : OutboxConfig}
  {key : String}

theorem XpSystem.Joined.safe (hjoined : s.Joined s') (h : s.Safe key) : s'.Safe key := by
  obtain ⟨added, hdeliveries, -⟩ := hjoined.deliveries
  unfold Safe Credited PastClaim ToBeClaimed
  rw [hjoined.credits, hdeliveries]
  rcases h with hcredited | ⟨d, hd, hpast⟩ | ⟨d, hd, hwaits⟩
  · exact .inl hcredited
  · exact .inr (.inl ⟨d, List.mem_append_left added hd, hpast⟩)
  · exact .inr (.inr ⟨d, List.mem_append_left added hd, hwaits⟩)

theorem xpIdempotencyKey_ne_empty (userId attemptId : Uuid) :
    xpIdempotencyKey userId attemptId ≠ "" := by
  intro h
  have hlength := congrArg (fun t : String => t.toList.length) h
  simp only [xpIdempotencyKey, String.toList_append, List.length_append] at hlength
  simp at hlength

theorem parse_xpEvent (d : Drawn) (p : CompletionParams) (xp : XpOutbox)
    (hkey : xp.idempotencyKey = xpIdempotencyKey p.userId p.attemptId) :
    parseAttemptXpOutboxPayload (xpEvent d p xp).row
      = .ok (attemptXpEvent p.userId p.attemptId p.xpEarned) := by
  have hfields : (xpEvent d p xp).row.payload
      = [("userId", .str p.userId.text), ("attemptId", .str p.attemptId.text),
         ("amount", .num p.xpEarned), ("idempotencyKey", .str xp.idempotencyKey),
         ("correlationId", .str xp.correlationId), ("timestamp", .num p.nowIso)] := rfl
  simp [parseAttemptXpOutboxPayload, requireString, requireNumber, optionalString,
    requireTimestamp, OutboxRow.field, hfields, hkey, Uuid.text_ne_empty, xpIdempotencyKey_ne_empty,
    attemptXpEvent, List.lookup_cons, bind, Except.bind, pure, Except.pure]

theorem validateXpEvent_attempt {userId attemptId : Uuid} {xpEarned : Int} (h : 0 < xpEarned) :
    validateXpEvent (attemptXpEvent userId attemptId xpEarned) = .ok () := by
  have hamount : ¬ xpEarned ≤ 0 := Int.not_le.mpr h
  simp [validateXpEvent, attemptXpEvent, Uuid.text_ne_empty, xpIdempotencyKey_ne_empty, hamount]

theorem xpRowOk_xpEvent {d : Drawn} {p : CompletionParams} {xp : XpOutbox}
    (hkey : xp.idempotencyKey = xpIdempotencyKey p.userId p.attemptId)
    (hpos : 0 < p.xpEarned) (hgrant : (XpAction.complete d p).Granted grant) :
    XpRowOk grant (xpEvent d p xp).row :=
  ⟨rfl, _, parse_xpEvent d p xp hkey, validateXpEvent_attempt hpos, hgrant⟩

theorem Lossless.of_outbox {o : Outbox.System} (h : Lossless grant s) (ho : XpOutboxOk grant o)
    (hpub : ∀ key, Published o key → Published s.outbox key) :
    Lossless grant { s with outbox := o } :=
  ⟨ho, h.deliveries, h.credits, fun key hkey => h.safe key (hpub key hkey)⟩

theorem Lossless.complete {d : Drawn} {p : CompletionParams} (h : Lossless grant s)
    (hgrant : (XpAction.complete d p).Granted grant)
    (hstep : s.step config (.complete d p) = some s') : Lossless grant s' := by
  simp only [XpSystem.step] at hstep
  split at hstep
  · next hkeys =>
    rw [← Option.some.inj hstep]
    unfold publishXp
    split
    · next xp hxp =>
      split
      · next hpos =>
        have hrow := xpRowOk_xpEvent (hkeys xp hxp) hpos hgrant
        exact h.of_outbox (h.outbox.insert fun _ => hrow) fun _ => published_insert
      · exact h
    · exact h
  · cases hstep

theorem Lossless.receive {event : ExternalXpEarnedEvent} {source : XpIngestSource}
    (h : Lossless grant s) (hgrant : grant event.idempotencyKey = event) :
    Lossless grant (s.receive event source n) := by
  have hjoined := s.joined_receive event source n
  rcases s.receive_cases event source n with ⟨-, heq⟩ | heq
  · rw [heq] at hjoined ⊢
    refine ⟨h.outbox, ?_, h.credits, fun key hkey => hjoined.safe (h.safe key hkey)⟩
    refine List.forall_mem_append.mpr ⟨h.deliveries, ?_⟩
    intro d hd
    rw [List.eq_of_mem_replicate hd]
    exact hgrant
  · rw [heq]
    exact h

theorem Lossless.job {job : Job} (h : Lossless grant s) (hjob : s.outbox.jobs[i]? = some job)
    (hp : job.processor = .attempt) : XpRowOk grant job.row := by
  have hok := h.outbox.jobs job (List.mem_of_getElem? hjob)
  obtain ⟨row, hrow, hsame⟩ := hok.present
  have hxp : isXpRow row = true := by
    rw [hsame.isXpRow]
    exact hok.own hp
  refine (h.outbox.rows row (mem_of_find? hrow) hxp).congr ?_
  exact ⟨hsame.aggregateType.symm, hsame.eventType.symm, hsame.payload.symm⟩

theorem published_eq {job : Job} (hjob : s.outbox.jobs[i]? = some job)
    (hp : job.processor = .attempt) :
    s.published i = some (parseAttemptXpOutboxPayload job.row) := by
  simp [published, hjob, hp]

theorem Lossless.dispatch {out : Delivery} {at_ : Int} {event : ExternalXpEarnedEvent}
    {outbox : Outbox.System} (h : Lossless grant s) (hpub : s.published i = some (.ok event))
    (hup : Upheld s (.outbox (.dispatch i out at_) n))
    (hstep : s.outbox.step config (.dispatch i out at_) = some outbox) :
    Lossless grant ({ s with outbox }.receive event .outbox n) := by
  obtain ⟨job, hjob, hp, hparse⟩ : ∃ job, s.outbox.jobs[i]? = some job ∧
      job.processor = .attempt ∧ parseAttemptXpOutboxPayload job.row = .ok event := by
    unfold published at hpub
    split at hpub
    · next job hjob =>
      split at hpub
      · next hp => exact ⟨job, hjob, hp, Option.some.inj hpub⟩
      · cases hpub
    · cases hpub
  obtain ⟨event', hparse', hvalid, hgrant⟩ := (h.job hjob hp).parsed
  rw [hparse, Except.ok.injEq] at hparse'
  subst hparse'
  have heq : { s with outbox }.receive event .outbox n
      = { s with
          outbox, deliveries := s.deliveries ++ List.replicate n ⟨event, .outbox, .received⟩ } := by
    unfold XpSystem.receive
    rw [hvalid]
  have hjoined := joined_receive { s with outbox } event .outbox n
  rw [heq] at hjoined ⊢
  refine ⟨h.outbox.dispatch hstep, ?_, h.credits, ?_⟩
  · refine List.forall_mem_append.mpr ⟨h.deliveries, ?_⟩
    intro d hd
    rw [List.eq_of_mem_replicate hd]
    exact hgrant
  · intro key hkey
    rcases published_dispatch hstep hkey with hold | ⟨job', hjob', -, -, hsettles, hkey⟩
    · exact hjoined.safe (h.safe key hold)
    · -- the row is settled now: its event has been handed to somebody, or has been counted
      rw [hjob, Option.some.injEq] at hjob'
      subst hjob'
      have hkey : some event.idempotencyKey = some key := by
        rw [← hkey, xpKey, hparse]
        rfl
      rw [Option.some.injEq] at hkey
      subst hkey
      rcases hup event hpub hsettles with hn | hcredited
      · refine .inr (.inr ⟨⟨event, .outbox, .received⟩, ?_, rfl, rfl, rfl⟩)
        exact List.mem_append_right _ (List.mem_replicate.mpr ⟨Nat.ne_of_gt hn, rfl⟩)
      · exact .inl hcredited

theorem Lossless.outboxStep {a : Outbox.Action} (h : Lossless grant s)
    (hup : Upheld s (.outbox a n)) (hstep : s.outboxStep config n a = some s') :
    Lossless grant s' := by
  rcases outboxStep_cases hstep with ⟨outbox, rfl, ⟨e, rfl, hne, ho⟩ | ⟨p, now, rfl, ho⟩ |
    ⟨i, at_, rfl, ho⟩ | ⟨i, out, at_, e, rfl, hpub, ho⟩ | ⟨i, out, at_, rfl, hpub, ho⟩⟩ |
    ⟨i, out, at_, event, outbox, rfl, hpub, ho, rfl⟩
  · rw [← Option.some.inj ho]
    have hnot : isXpRow e.row = true → XpRowOk grant e.row := by
      intro hxp
      have htype : e.eventType = "attempt.xp_to_publish" := by simpa [isXpRow, NewEvent.row] using hxp
      exact absurd htype hne
    exact h.of_outbox (h.outbox.insert hnot) fun _ => published_insert
  · rw [← Option.some.inj ho]
    have hown : p = .notification → ∀ row ∈ p.batch s.outbox.events now, isXpRow row = false := by
      rintro rfl
      exact hup
    exact h.of_outbox (h.outbox.select hown) fun _ => published_select
  · exact h.of_outbox (h.outbox.settle ho) fun _ => published_settle h.outbox ho
  · refine h.of_outbox (h.outbox.dispatch ho) ?_
    intro key hkey
    rcases published_dispatch ho hkey with hold | ⟨job, hjob, -, hp, -, hxp⟩
    · exact hold
    · rw [published_eq hjob hp, Option.some.injEq] at hpub
      rw [xpKey, hpub] at hxp
      cases hxp
  · refine h.of_outbox (h.outbox.dispatch ho) ?_
    intro key hkey
    rcases published_dispatch ho hkey with hold | ⟨job, hjob, -, hp, -, -⟩
    · exact hold
    · rw [published_eq hjob hp] at hpub
      cases hpub
  · exact h.dispatch hpub hup ho

theorem Lossless.claim {reply : RedisReply} (h : Lossless grant s) (hd : s.deliveries[i]? = some d)
    (hphase : d.phase = .received) (hup : Upheld s (.claim i reply)) :
    Lossless grant { s with
      claims := (tryClaimXp s.claims d.event.idempotencyKey reply).2
      deliveries := if (tryClaimXp s.claims d.event.idempotencyKey reply).1
        then s.deliveries.set i { d with phase := .claimed } else s.deliveries.eraseIdx i } := by
  have hgrant := h.deliveries d (List.mem_of_getElem? hd)
  cases hclaim : (tryClaimXp s.claims d.event.idempotencyKey reply).1 with
  | true =>
    rw [if_pos rfl]
    refine ⟨h.outbox, forall_mem_set h.deliveries hgrant, h.credits, ?_⟩
    intro key hkey
    rcases h.safe key hkey with hcredited | hpast | hwaits
    · exact .inl hcredited
    · rcases exists_mem_set (y := { d with phase := .claimed }) hd hpast with ⟨hclaimed, -⟩ | hpast
      · rw [hphase] at hclaimed
        cases hclaimed
      · exact .inr (.inl hpast)
    · rcases exists_mem_set (y := { d with phase := .claimed }) hd hwaits with ⟨-, -, hown⟩ | hwaits
      · exact .inr (.inl ⟨_, mem_set_self hd, rfl, hown⟩)
      · exact .inr (.inr hwaits)
  | false =>
    rw [if_neg Bool.false_ne_true]
    refine ⟨h.outbox, fun x hx => h.deliveries x (List.mem_of_mem_eraseIdx hx), h.credits, ?_⟩
    -- a call past its claim is another call
    have hother : ∀ key, s.PastClaim key → ∃ x ∈ s.deliveries.eraseIdx i,
        x.phase = .claimed ∧ x.event.idempotencyKey = key := by
      intro key hpast
      rcases exists_mem_eraseIdx hd hpast with ⟨hclaimed, -⟩ | hpast
      · rw [hphase] at hclaimed
        cases hclaimed
      · exact hpast
    intro key hkey
    rcases h.safe key hkey with hcredited | hpast | hwaits
    · exact .inl hcredited
    · exact .inr (.inl (hother key hpast))
    · rcases exists_mem_eraseIdx hd hwaits with ⟨-, hsource, hown⟩ | hwaits
      · rcases hup d hd hsource hclaim with hcredited | hpast
        · rw [hown] at hcredited
          exact .inl hcredited
        · rw [hown] at hpast
          exact .inr (.inl (hother key hpast))
      · exact .inr (.inr hwaits)

theorem Lossless.commit {drawn : XpDrawn} {fails : Bool} {ranking : UserRanking}
    {events : OutboxEvents} (h : Lossless grant s) (hd : s.deliveries[i]? = some d)
    (hphase : d.phase = .claimed)
    (happly : applyXpEvent s.ranking s.outbox.events d.event now drawn fails = .ok (ranking, events)) :
    Lossless grant { s with
      ranking, outbox := { s.outbox with events }, deliveries := s.deliveries.eraseIdx i,
      credits := s.credits ++ [d.event] } := by
  obtain ⟨row, -, -, rfl⟩ := applyXpEvent_ok happly
  have hgrant := h.deliveries d (List.mem_of_getElem? hd)
  have hnot : isXpRow (xpAddedEvent d.event row now drawn).row = false := by
    simp [isXpRow, NewEvent.row, xpAddedEvent]
  refine ⟨h.outbox.insert fun hxp => absurd hxp (by rw [hnot]; decide),
    fun x hx => h.deliveries x (List.mem_of_mem_eraseIdx hx),
    forall_mem_join h.credits hgrant, ?_⟩
  intro key hkey
  rcases h.safe key (published_insert hkey) with ⟨event, hevent, hown⟩ | hpast | hwaits
  · exact .inl ⟨event, List.mem_append_left _ hevent, hown⟩
  · rcases exists_mem_eraseIdx hd hpast with ⟨-, hown⟩ | hpast
    · exact .inl ⟨d.event, List.mem_append_right _ (List.mem_singleton_self _), hown⟩
    · exact .inr (.inl hpast)
  · rcases exists_mem_eraseIdx hd hwaits with ⟨hreceived, -⟩ | hwaits
    · rw [hphase] at hreceived
      cases hreceived
    · exact .inr (.inr hwaits)

theorem Lossless.fail {drawn : XpDrawn} {fails : Bool} {e : String} (h : Lossless grant s)
    (hd : s.deliveries[i]? = some d) (hphase : d.phase = .claimed)
    (hup : Upheld s (.transact i now drawn fails))
    (happly : applyXpEvent s.ranking s.outbox.events d.event now drawn fails = .error e) :
    Lossless grant { s with deliveries := s.deliveries.set i { d with phase := .failed } } := by
  have hgrant := h.deliveries d (List.mem_of_getElem? hd)
  refine ⟨h.outbox, forall_mem_set h.deliveries hgrant, h.credits, ?_⟩
  intro key hkey
  rcases h.safe key hkey with hcredited | hpast | hwaits
  · exact .inl hcredited
  · rcases exists_mem_set (y := { d with phase := .failed }) hd hpast with ⟨-, hown⟩ | hpast
    · -- a published event whose transaction throws has been counted before
      subst hown
      rcases hup d hd hkey with hcredited | ⟨hfails, hfits⟩
      · exact .inl hcredited
      · obtain ⟨x, hx⟩ := applyXpEvent_isOk_iff.mpr ⟨hfails, hfits⟩
        rw [happly] at hx
        cases hx
    · exact .inr (.inl hpast)
  · rcases exists_mem_set (y := { d with phase := .failed }) hd hwaits with ⟨hreceived, -⟩ | hwaits
    · rw [hphase] at hreceived
      cases hreceived
    · exact .inr (.inr hwaits)

theorem Lossless.release (claims : List String) (h : Lossless grant s)
    (hd : s.deliveries[i]? = some d) (hphase : d.phase = .failed) :
    Lossless grant { s with claims, deliveries := s.deliveries.eraseIdx i } := by
  refine ⟨h.outbox, fun x hx => h.deliveries x (List.mem_of_mem_eraseIdx hx), h.credits, ?_⟩
  intro key hkey
  rcases h.safe key hkey with hcredited | hpast | hwaits
  · exact .inl hcredited
  · rcases exists_mem_eraseIdx hd hpast with ⟨hclaimed, -⟩ | hpast
    · rw [hphase] at hclaimed
      cases hclaimed
    · exact .inr (.inl hpast)
  · rcases exists_mem_eraseIdx hd hwaits with ⟨hreceived, -⟩ | hwaits
    · rw [hphase] at hreceived
      cases hreceived
    · exact .inr (.inr hwaits)

theorem Lossless.step {a : XpAction} (h : Lossless grant s) (hgrant : a.Granted grant)
    (hup : Upheld s a) (hstep : s.step config a = some s') : Lossless grant s' := by
  rcases step_cases hstep with ⟨hbackground, -⟩ | ⟨i, reply, d, rfl, hd, hphase, rfl⟩ |
    ⟨i, now, drawn, fails, d, rfl, hd, hphase, -, ⟨ranking, events, happly, rfl⟩ | ⟨e, happly, rfl⟩⟩ |
    ⟨i, reply, d, rfl, hd, hphase, rfl⟩
  · cases a with
    | complete d p => exact h.complete hgrant hstep
    | outbox a n => exact h.outboxStep hup hstep
    | deliver event source =>
      rw [← Option.some.inj hstep]
      exact h.receive hgrant
    | claim | transact | release => exact hbackground.elim
  · exact h.claim hd hphase hup
  · exact h.commit hd hphase happly
  · exact h.fail hd hphase hup happly
  · exact h.release _ hd hphase

end OneStep

/-! ## Every run -/

theorem Lossless.counted {grant : String → ExternalXpEarnedEvent} {s : XpSystem}
    (h : Lossless grant s) (hrow : row ∈ s.outbox.events.rows) (hxp : isXpRow row = true)
    (hprocessed : row.processedAt.isSome = true) :
    ∃ event, parseAttemptXpOutboxPayload row = .ok event ∧
      ((∀ d ∈ s.deliveries, d.event.idempotencyKey ≠ event.idempotencyKey) →
        event ∈ s.credits) := by
  obtain ⟨event, hparse, -, hgrant⟩ := (h.outbox.rows row hrow hxp).parsed
  refine ⟨event, hparse, ?_⟩
  intro hnone
  have hkey : xpKey row = some event.idempotencyKey := by
    rw [xpKey, hparse]
    rfl
  rcases h.safe _ (.inl ⟨row, hrow, hxp, hprocessed, hkey⟩) with ⟨credit, hcredit, hown⟩ |
    ⟨d, hd, -, hown⟩ | ⟨d, hd, -, -, hown⟩
  · -- a key stands for one event
    have hsame := h.credits credit hcredit
    rw [hown, hgrant] at hsame
    rw [hsame]
    exact hcredit
  · exact absurd hown (hnone d hd)
  · exact absurd hown (hnone d hd)

/-- **Earned XP is not lost** in any run that upholds its deliveries. -/
theorem xp_not_lost_while_upheld (config : OutboxConfig) (grant : String → ExternalXpEarnedEvent)
    (ranking : UserRanking) (claims : List String) (acts : List XpAction)
    (hgrant : ∀ a ∈ acts, a.Granted grant)
    (hup : Along (XpSystem.step config) Upheld { XpSystem.start with ranking, claims } acts) :
    Always (XpSystem.step config) (XpNotLost { XpSystem.start with ranking, claims })
      { XpSystem.start with ranking, claims } acts := by
  intro pre s hpre hs
  have hstart : Lossless grant { XpSystem.start with ranking, claims } := by
    refine ⟨⟨?_, ?_⟩, ?_, ?_, ?_⟩
    · exact fun _ hrow => absurd hrow List.not_mem_nil
    · exact fun _ hjob => absurd hjob List.not_mem_nil
    · exact fun _ hd => absurd hd List.not_mem_nil
    · exact fun _ hevent => absurd hevent List.not_mem_nil
    · rintro key (⟨row, hrow, -⟩ | ⟨job, hjob, -⟩)
      · exact absurd hrow List.not_mem_nil
      · exact absurd hjob List.not_mem_nil
  have hlossless : Lossless grant s :=
    ((hup.of_prefix hpre).and_forall fun a ha => hgrant a (hpre.subset ha)).invariant
      (fun _ _ _ h hc hstep => h.step hc.2 hc.1 hstep) hs hstart
  exact ⟨fun row hrow hxp hprocessed => hlossless.counted hrow hxp hprocessed,
    exec_allTimeXp rfl hs⟩

/-! Both ways of an event, for the examples. -/

instance (o : Outbox.System) (key : String) : Decidable (Published o key) :=
  decidable_of_iff ((∃ row ∈ o.events.rows, isXpRow row = true ∧ row.processedAt.isSome = true ∧
      xpKey row = some key) ∨ (∃ job ∈ o.jobs, isXpRow job.row = true ∧ job.processor = .attempt ∧
      job.result.any settles = true ∧ xpKey job.row = some key))
    (by simp only [Published, Option.any_eq_true])

instance (s : XpSystem) (key : String) : Decidable (s.Credited key) :=
  inferInstanceAs (Decidable (∃ event ∈ s.credits, event.idempotencyKey = key))

instance (s : XpSystem) (key : String) : Decidable (s.PastClaim key) :=
  inferInstanceAs (Decidable (∃ d ∈ s.deliveries, d.phase = .claimed ∧ d.event.idempotencyKey = key))

instance (s : XpSystem) (i n : Nat) (out : Delivery) (at_ : Int) :
    Decidable (Upheld s (.outbox (.dispatch i out at_) n)) :=
  match h : s.published i with
  | some (.ok event) =>
    decidable_of_iff (settles out = true → 0 < n ∨ s.Credited event.idempotencyKey)
      ⟨fun hc e he => by rw [h] at he; cases he; exact hc, fun hc => hc event h⟩
  | some (.error _) => .isTrue fun e he => by rw [h] at he; cases he
  | none => .isTrue fun e he => by rw [h] at he; cases he

instance (s : XpSystem) (a : XpAction) : Decidable (Upheld s a) :=
  match a with
  | .outbox (.select .notification now) _ => inferInstanceAs (Decidable
      (∀ row ∈ notification.batch s.outbox.events now, isXpRow row = false))
  | .outbox (.select .attempt _) _ | .outbox (.select .ranking _) _
  | .outbox (.select .coin _) _ | .outbox (.select .tournament _) _
  | .outbox (.select .achievement _) _ | .outbox (.select .review _) _
  | .outbox (.select .dailyChallenge _) _ | .outbox (.select .auth _) _ => .isTrue trivial
  | .outbox (.dispatch _ _ _) _ => inferInstance
  | .outbox (.write _) _ => .isTrue trivial
  | .outbox (.settle _ _) _ => .isTrue trivial
  | .claim i reply => inferInstanceAs (Decidable (∀ d ∈ s.deliveries[i]?, d.source = .outbox →
      (tryClaimXp s.claims d.event.idempotencyKey reply).1 = false →
        s.Credited d.event.idempotencyKey ∨ s.PastClaim d.event.idempotencyKey))
  | .transact i now _ fails => inferInstanceAs (Decidable (∀ d ∈ s.deliveries[i]?,
      Published s.outbox d.event.idempotencyKey → s.Credited d.event.idempotencyKey ∨
        fails = false ∧ (xpStep s.ranking ⟨d.event.userId, d.event.amount, now⟩).isSome))
  | .complete .. => .isTrue trivial
  | .deliver .. => .isTrue trivial
  | .release .. => .isTrue trivial

/-- An attempt is completed and its event delivered both ways. The call inside the process makes its
claim first, and the delivery by the bus finds it. -/
def deliveredBothWays : List XpAction :=
  [.complete completionDrawn fiftyXpCompletion, .deliver fiftyXp .inProc, .claim 0 .answered,
   .outbox (.select .attempt 1) 0, .outbox (.dispatch 0 (.ok ()) 1) 1, .outbox (.settle 0 1) 0,
   .claim 1 .answered]

def countedOnce : List XpAction := deliveredBothWays ++ [.transact 0 1 ⟨"e1", 1⟩ false]

theorem xp_not_lost_while_upheld_counted :
    Along (XpSystem.step plainConfig) Upheld XpSystem.start countedOnce ∧
      ∃ s, exec (XpSystem.step plainConfig) XpSystem.start countedOnce = some s ∧
        s.deliveries = [] ∧ s.credits = [fiftyXp] ∧ XpNotLost XpSystem.start s := by
  have hgrant : ∀ a ∈ countedOnce, a.Granted fun _ => fiftyXp := by
    simp [countedOnce, deliveredBothWays, XpAction.Granted, fiftyXp, fiftyXpCompletion]
  have hup : Along (XpSystem.step plainConfig) Upheld XpSystem.start countedOnce := by
    decide +kernel
  obtain ⟨s, hs, hread⟩ : ∃ s, exec (XpSystem.step plainConfig) XpSystem.start countedOnce = some s ∧
      (s.deliveries, s.credits) = ([], [fiftyXp]) := Option.map_eq_some_iff.mp (by decide +kernel)
  rw [Prod.mk.injEq] at hread
  exact ⟨hup, s, hs, hread.1, hread.2, xp_not_lost_while_upheld plainConfig (fun _ => fiftyXp)
    (Table.empty _) [] countedOnce hgrant hup countedOnce s (List.prefix_refl _) hs⟩

/-- The transaction throws instead, and the claim is given back. -/
def failedOnce : List XpAction :=
  deliveredBothWays ++ [XpAction.transact 0 1 ⟨"e1", 1⟩ true, .release 0 .answered]

/-- The row is processed, no call is under way, and the fifty XP have not been counted: the delivery
by the bus has been turned away by a claim that came to nothing. -/
theorem xp_lost_behind_a_claim :
    ∃ s, exec (XpSystem.step plainConfig) XpSystem.start failedOnce = some s ∧
      s.deliveries = [] ∧ s.credits = [] ∧ ¬ XpNotLost XpSystem.start s := by
  refine exists_of_read
    (fun s => (s.deliveries, s.credits,
      s.outbox.events.rows.any fun row => isXpRow row && row.processedAt.isSome))
    ([], [], true) (by decide +kernel) fun s hs hread => ?_
  simp only [Prod.mk.injEq, List.any_eq_true, Bool.and_eq_true] at hread
  obtain ⟨hdeliveries, hcredits, row, hrow, hxp, hprocessed⟩ := hread
  refine ⟨hdeliveries, hcredits, ?_⟩
  intro hnotlost
  obtain ⟨event, -, hcounted⟩ := hnotlost.counted row hrow hxp hprocessed
  rw [hdeliveries, hcredits] at hcounted
  exact absurd (hcounted fun _ hd => absurd hd List.not_mem_nil) List.not_mem_nil

end QuizBackend.Ranking
