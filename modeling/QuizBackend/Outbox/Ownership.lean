import QuizBackend.Outbox.Isolation

/-!
# Processors that share the base class

Five processors are `BaseOutboxProcessor` with an aggregate of their own, and so is the one of
`auth`, except that its `buildPendingWhere` names no aggregate. It takes whatever is due, cannot
dispatch what is not its own, and its `handleFailure` counts that as an attempt of the row: the row
is put off and in the end dead-lettered, and its own processor has not had it once.

What the base class promises, one table partitioned across many processors without cross-talk,
holds of any interleaving in which no poll of `auth` comes upon a row of another aggregate.
-/

namespace QuizBackend.Outbox

open Lib Processor Table

/-! ## What it is about -/

def Processor.extendsBase : Processor → Bool
  | .attempt | .ranking | .coin | .achievement | .dailyChallenge | .auth => true
  | .notification | .tournament | .review => false

def Action.OfBaseProcessors : Action → Prop
  | .select p _ => p.extendsBase = true
  | _ => True

/-- A poll of `auth` finds rows of its aggregates only. -/
def AuthPollsOwn (s : System) : Action → Prop
  | .select .auth now => ∀ row ∈ auth.batch s.events now, auth.Owns row
  | _ => True

def OutboxRow.bookkeeping (row : OutboxRow) : Nat × Int × Option Int × Option String :=
  (row.attemptCount, row.nextAttemptAt, row.failedAt, row.dlqReason)

/-- No step interferes with a row of somebody else: a row is dispatched by its own processor, its
bookkeeping is changed by that processor, after a dispatch of the row that failed, nobody else
marks it processed, and a row of `auth` that has not been settled will be found by `auth`. -/
structure Uninterfered (s : System) (a : Action) (s' : System) : Prop where
  dispatched : ∀ i out at_ job, a = .dispatch i out at_ → s.jobs[i]? = some job →
    job.processor.Owns job.row ∧
      ∃ row, s.events.find? job.row.eventId = some row ∧ job.processor.Owns row
  bookkeeping : ∀ row ∈ s.events.rows, ∀ row', s'.events.find? row.eventId = some row' →
    row'.bookkeeping ≠ row.bookkeeping →
    ∃ i at_ job e out, a = .settle i at_ ∧ s.jobs[i]? = some job ∧
      job.row.eventId = row.eventId ∧ job.processor.Owns row ∧ job.result = some (.error e) ∧
      job.processor.dispatch job.row out = .error e
  processed : ∀ row ∈ s.events.rows, ∀ row', s'.events.find? row.eventId = some row' →
    row'.processedAt ≠ row.processedAt →
    ∃ i at_ job, a = .settle i at_ ∧ s.jobs[i]? = some job ∧ job.row.eventId = row.eventId ∧
      job.processor.Owns row
  selectable : ∀ row ∈ s'.events.rows, auth.Owns row → row.processedAt = none →
    row.failedAt = none → ∃ due, ∀ now, due ≤ now → auth.pendingWhere now row = true

/-! ## Jobs on one's own rows -/

structure OwnJob (events : OutboxEvents) (job : Job) : Prop where
  owns : job.processor.Owns job.row
  present : ∃ row, events.find? job.row.eventId = some row ∧
    row.aggregateType = job.row.aggregateType
  base : job.processor.extendsBase = true
  dispatched : ∀ d, job.result = some d → ∃ out, d = job.processor.dispatch job.row out

/-- Every job is on a row of its own processor. -/
def OwnJobs (s : System) : Prop := ∀ job ∈ s.jobs, OwnJob s.events job

theorem OwnJob.of_rowsKept {t t' : OutboxEvents} {job : Job} (h : OwnJob t job)
    (hk : RowsKept t t') : OwnJob t' job := by
  obtain ⟨row, hrow, hagg⟩ := h.present
  obtain ⟨row', hrow', hagg'⟩ := hk _ _ hrow
  exact ⟨h.owns, ⟨row', hrow', hagg'.trans hagg⟩, h.base, h.dispatched⟩

theorem OwnJob.row_owned {t : OutboxEvents} {job : Job} (h : OwnJob t job) :
    ∃ row, t.find? job.row.eventId = some row ∧ job.processor.Owns row := by
  obtain ⟨row, hrow, hagg⟩ := h.present
  refine ⟨row, hrow, ?_⟩
  have howns := h.owns
  unfold Owns at howns ⊢
  rwa [hagg]

theorem OwnJobs.of_rowsKept {s s' : System} (h : OwnJobs s) (hk : RowsKept s.events s'.events)
    (hj : ∀ job ∈ s'.jobs, job ∈ s.jobs) : OwnJobs s' :=
  fun job hjob => (h job (hj job hjob)).of_rowsKept hk

theorem OwnJobs.select {s : System} (h : OwnJobs s) {p : Processor} {now : Int}
    (hbase : p.extendsBase = true) (hp : AuthPollsOwn s (.select p now)) :
    OwnJobs { s with
      jobs := s.jobs ++ (p.batch s.events now).map fun row => ⟨p, row, now, none⟩ } := by
  intro job hjob
  rcases List.mem_append.mp hjob with hold | hnew
  · exact h job hold
  · obtain ⟨row, hrow, rfl⟩ := List.mem_map.mp hnew
    obtain ⟨hmem, hwhere⟩ := mem_of_mem_poll hrow
    refine ⟨?_, ⟨row, find?_of_mem hmem, rfl⟩, hbase, fun d hd => nomatch hd⟩
    by_cases ha : p = .auth
    · subst ha
      exact hp row hrow
    · refine owns_of_pendingWhere ?_ ha hwhere
      rintro rfl
      cases hbase

/-- **Every step keeps the jobs on their own rows**, when the polls of `auth` do. -/
theorem OwnJobs.step {config : OutboxConfig} {s s' : System} {a : Action} (h : OwnJobs s)
    (hbase : a.OfBaseProcessors) (hp : AuthPollsOwn s a) (hs : s.step config a = some s') :
    OwnJobs s' := by
  cases a with
  | write e =>
    cases hs
    exact h.of_rowsKept (rowsKept_insertEvent s.events e) fun _ hj => hj
  | select p now =>
    cases hs
    exact h.select hbase hp
  | dispatch i out at_ =>
    obtain ⟨job, hjob, hev, ⟨hjobs, -⟩ | ⟨hjobs, -⟩⟩ := step_dispatch hs
    · refine h.of_rowsKept (hev ▸ rowsKept_refl _) ?_
      intro j hj
      rw [hjobs] at hj
      exact List.mem_of_mem_eraseIdx hj
    · have hown := h job (List.mem_of_getElem? hjob)
      intro j hj
      rw [hjobs] at hj
      rw [hev]
      rcases List.mem_or_eq_of_mem_set hj with hold | rfl
      · exact h j hold
      · exact ⟨hown.owns, hown.present, hown.base,
          fun d hd => ⟨_, (Option.some.inj hd).symm⟩⟩
  | settle i at_ =>
    obtain ⟨job, d, -, -, hev, hjobs, -⟩ := step_settle hs
    refine h.of_rowsKept ?_ ?_
    · rw [hev]
      exact rowsKept_modify (keepsIdentity ..)
    · intro j hj
      rw [hjobs] at hj
      exact List.mem_of_mem_eraseIdx hj

/-! ## What a write-back changes -/

theorem bookkeeping_setProcessed (now : Int) (row : OutboxRow) :
    (unlessProcessed (setProcessed now) row).bookkeeping = row.bookkeeping := by
  unfold unlessProcessed
  split
  · rfl
  · rfl

theorem Processor.bookkeeping_writeBack_ok (config : AuthSecurityConfig) (snapshot : OutboxRow)
    (now at_ : Int) {p : Processor} (hbase : p.extendsBase = true) (row : OutboxRow) :
    (p.writeBack config snapshot now at_ (.ok ()) row).bookkeeping = row.bookkeeping := by
  cases p with
  | notification | tournament | review => cases hbase
  | auth => exact bookkeeping_setProcessed now row
  | attempt | ranking | coin | achievement | dailyChallenge =>
    exact bookkeeping_setProcessed now row

/-! ## No interference -/

theorem auth_selectable {row : OutboxRow} (hprocessed : row.processedAt = none)
    (hfailed : row.failedAt = none) {now : Int} (hdue : row.nextAttemptAt ≤ now) :
    auth.pendingWhere now row = true := by
  simp [pendingWhere, isDue, hprocessed, hfailed, hdue]

theorem OwnJobs.uninterfered {config : OutboxConfig} {s s' : System} {a : Action}
    (h : OwnJobs s) (hs : s.step config a = some s') : Uninterfered s a s' := by
  have hselect : ∀ row ∈ s'.events.rows, auth.Owns row → row.processedAt = none →
      row.failedAt = none → ∃ due, ∀ now, due ≤ now →
        auth.pendingWhere now row = true :=
    fun row _ _ hprocessed hfailed =>
      ⟨row.nextAttemptAt, fun _ hdue => auth_selectable hprocessed hfailed hdue⟩
  -- a step that leaves the rows alone
  have hquiet : (∀ row ∈ s.events.rows, s'.events.find? row.eventId = some row) →
      (∀ i out at_ job, a = .dispatch i out at_ → s.jobs[i]? = some job →
        job.processor.Owns job.row ∧
          ∃ row, s.events.find? job.row.eventId = some row ∧ job.processor.Owns row) →
      Uninterfered s a s' := by
    intro hsame hdispatch
    have hrow : ∀ row ∈ s.events.rows, ∀ row', s'.events.find? row.eventId = some row' →
        row' = row := by
      intro row hrow row' hrow'
      rw [hsame row hrow, Option.some.injEq] at hrow'
      exact hrow'.symm
    exact ⟨hdispatch, fun row hmem row' h' hne => absurd (by rw [hrow row hmem row' h']) hne,
      fun row hmem row' h' hne => absurd (by rw [hrow row hmem row' h']) hne, hselect⟩
  cases a with
  | write e =>
    cases hs
    refine hquiet (fun row hrow => insertEvent_find? hrow) ?_
    rintro i out at_ job ⟨⟩
  | select p now =>
    cases hs
    refine hquiet (fun row hrow => find?_of_mem hrow) ?_
    rintro i out at_ job ⟨⟩
  | dispatch i out at_ =>
    obtain ⟨job, hjob, hev, -⟩ := step_dispatch hs
    refine hquiet (fun row hrow => ?_) ?_
    · rw [hev]
      exact find?_of_mem hrow
    · rintro j out' at' job' ⟨⟩ hjob'
      have hown := h job' (List.mem_of_getElem? hjob')
      exact ⟨hown.owns, hown.row_owned⟩
  | settle i at_ =>
    obtain ⟨job, d, hjob, hres, hev, -, -⟩ := step_settle hs
    have hown := h job (List.mem_of_getElem? hjob)
    obtain ⟨out, hout⟩ := hown.dispatched d hres
    obtain ⟨target, htarget, howned⟩ := hown.row_owned
    -- only the job's row is written, and the job is its owner's
    have hwritten : ∀ row ∈ s.events.rows, ∀ row', s'.events.find? row.eventId = some row' →
        row' = row ∨ (job.row.eventId = row.eventId ∧ job.processor.Owns row ∧
          row' = job.processor.writeBack config.auth job.row job.startedAt at_ d row) := by
      intro row hrow row' hrow'
      by_cases hid : row.eventId = job.row.eventId
      · rw [hev, find?_modify, if_pos hid, ← hid, find?_of_mem hrow, Option.map_some,
          Option.some.injEq] at hrow'
        rw [← hid, find?_of_mem hrow, Option.some.injEq] at htarget
        exact .inr ⟨hid.symm, htarget ▸ howned, hrow'.symm⟩
      · rw [hev, find?_modify_ne hid, find?_of_mem hrow, Option.some.injEq] at hrow'
        exact .inl hrow'.symm
    refine ⟨by rintro j out' at' job' ⟨⟩, ?_, ?_, hselect⟩
    · intro row hrow row' hrow' hne
      rcases hwritten row hrow row' hrow' with rfl | ⟨hid, howns, rfl⟩
      · exact absurd rfl hne
      · cases d with
        | ok u =>
          -- a delivery that went through does not count as an attempt
          exact absurd (bookkeeping_writeBack_ok config.auth job.row job.startedAt at_
            hown.base row) hne
        | error e => exact ⟨i, at_, job, e, out, rfl, hjob, hid, howns, hres, hout.symm⟩
    · intro row hrow row' hrow' hne
      rcases hwritten row hrow row' hrow' with rfl | ⟨hid, howns, -⟩
      · exact absurd rfl hne
      · exact ⟨i, at_, job, rfl, hjob, hid, howns⟩

/-- **Processors that share the base class do not interfere**, in any interleaving of their runs in
which the polls of `auth` come upon rows of its own aggregates only. -/
theorem base_processors_uninterfered (config : OutboxConfig) (events : OutboxEvents)
    (acts : List Action) (hbase : ∀ a ∈ acts, a.OfBaseProcessors)
    (hpolls : Along (System.step config) AuthPollsOwn (System.start events) acts) :
    EachStep (System.step config) Uninterfered (System.start events) acts := by
  intro pre a s s' hp hs hstep
  have hpre : pre <+: acts := (List.prefix_append pre [a]).trans hp
  have hstart : OwnJobs (System.start events) := fun _ hj => absurd hj List.not_mem_nil
  have hboth := (hpolls.of_prefix hpre).and_forall fun a ha => hbase a (hpre.subset ha)
  have hown : OwnJobs s := hboth.invariant (fun _ _ _ h hc hst => h.step hc.2 hc.1 hst) hs hstart
  exact hown.uninterfered hstep

instance (s : System) (a : Action) : Decidable (AuthPollsOwn s a) :=
  match a with
  | .select .auth now => inferInstanceAs (Decidable (∀ row ∈ auth.batch s.events now,
      row.aggregateType ∈ auth.aggregates))
  | .select .notification _ | .select .attempt _ | .select .ranking _ | .select .coin _
  | .select .tournament _ | .select .achievement _ | .select .review _
  | .select .dailyChallenge _ => .isTrue trivial
  | .write _ => .isTrue trivial
  | .dispatch .. => .isTrue trivial
  | .settle .. => .isTrue trivial

def coinFails : List Action :=
  [.write coinAdded, .select .auth (-1), .select .coin 0,
   .dispatch 0 (.error (.error "bus is down")) 1]

theorem base_processors_uninterfered_by_failure :
    ∃ s s', exec (System.step ⟨⟨8, 30⟩, true⟩) (System.start (Table.empty _)) coinFails = some s ∧
      s.step ⟨⟨8, 30⟩, true⟩ (.settle 0 2) = some s' ∧ Uninterfered s (.settle 0 2) s' := by
  have hbase : ∀ a ∈ coinFails ++ [.settle 0 2], a.OfBaseProcessors := by
    intro a ha
    simp only [coinFails, List.cons_append, List.nil_append, List.mem_cons, List.not_mem_nil,
      or_false] at ha
    rcases ha with rfl | rfl | rfl | rfl | rfl
    · exact trivial
    · exact rfl
    · exact rfl
    · exact trivial
    · exact trivial
  have hpolls : Along (System.step ⟨⟨8, 30⟩, true⟩) AuthPollsOwn (System.start (Table.empty _))
      (coinFails ++ [.settle 0 2]) := by decide +kernel
  obtain ⟨s', hs'⟩ : ∃ s', exec (System.step ⟨⟨8, 30⟩, true⟩) (System.start (Table.empty _))
      (coinFails ++ [.settle 0 2]) = some s' := Option.isSome_iff_exists.mp (by decide +kernel)
  obtain ⟨s, hs, hstep⟩ := exec_snoc.mp hs'
  exact ⟨s, s', hs, hstep, base_processors_uninterfered _ _ _ hbase hpolls coinFails (.settle 0 2)
    s s' (List.prefix_refl _) hs hstep⟩

/-- The `n`-th run of `auth` on a row it cannot dispatch: it comes when the row is due again. -/
def authRun (n : Nat) : List Action :=
  [.select .auth (30000 * (2 ^ n - 1)), .dispatch 0 (.ok ()) 0, .settle 0 0]

/-- Eight runs of `auth`; the coin processor is down meanwhile. -/
def eightAuthRuns : List Action :=
  .write coinAdded :: (List.range 7).flatMap authRun ++
    [.select .auth (30000 * (2 ^ 7 - 1)), .dispatch 0 (.ok ()) 0]

def System.coinEvent (s : System) : List Processor × Option (String × Nat × Option Int) :=
  (s.jobs.map (·.processor), (s.events.find? coinAdded.eventId).map fun row =>
    (row.aggregateType, row.attemptCount, row.failedAt))

/-- `auth` dead-letters a coin event that its own processor has never seen. -/
theorem coin_event_dead_lettered_by_auth :
    ∃ s s', exec (System.step ⟨⟨8, 30⟩, true⟩) (System.start (Table.empty _)) eightAuthRuns
        = some s ∧
      s.step ⟨⟨8, 30⟩, true⟩ (.settle 0 0) = some s' ∧
      ((s'.events.find? coinAdded.eventId).map (·.failedAt)) = some (some 3810000) ∧
      ¬ Uninterfered s (.settle 0 0) s' := by
  -- the state before the last step and the one after it, from one run
  have hrun : ((exec (System.step ⟨⟨8, 30⟩, true⟩) (System.start (Table.empty _)) eightAuthRuns).bind
      fun s => (s.step ⟨⟨8, 30⟩, true⟩ (.settle 0 0)).map fun t =>
        decide (s.coinEvent = ([.auth], some ("coin", 7, none)) ∧
          t.coinEvent = ([], some ("coin", 8, some 3810000)))) = some true := by
    decide +kernel
  obtain ⟨s, hs, hlast⟩ := Option.bind_eq_some_iff.mp hrun
  obtain ⟨t, hstep, hreads⟩ := Option.map_eq_some_iff.mp hlast
  obtain ⟨hread, hreadt⟩ := of_decide_eq_true hreads
  obtain ⟨hjobs, hrow⟩ := Prod.mk.inj hread
  obtain ⟨row, hfind, hrow⟩ := Option.map_eq_some_iff.mp hrow
  obtain ⟨row', hfind', hrow'⟩ := Option.map_eq_some_iff.mp (Prod.mk.inj hreadt).2
  simp only [Prod.mk.injEq] at hrow hrow'
  obtain ⟨hagg, hseven, -⟩ := hrow
  obtain ⟨-, height, hfailed⟩ := hrow'
  refine ⟨s, t, hs, hstep, by rw [hfind', Option.map_some, hfailed], ?_⟩
  intro h
  have hne : row'.bookkeeping ≠ row.bookkeeping := by
    intro he
    have hsame : row'.attemptCount = row.attemptCount := congrArg (·.1) he
    omega
  have hid := Table.key_of_find? hfind
  obtain ⟨i, at_, job, e, out, -, hjob, -, howns, -, -⟩ :=
    h.bookkeeping row (Table.mem_of_find? hfind) row' (hid ▸ hfind') hne
  have hauth : job.processor ∈ [Processor.auth] :=
    hjobs ▸ List.mem_map_of_mem (List.mem_of_getElem? hjob)
  unfold Processor.Owns at howns
  rw [List.mem_singleton.mp hauth, hagg] at howns
  exact absurd howns (by decide)

end QuizBackend.Outbox
