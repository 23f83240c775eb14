import QuizBackend.Outbox.Retries
import QuizBackend.Lib.Exclusive

/-!
# Runs of one processor side by side

A cron tick calls `runProcessPendingEvents(this.db)` with the pool, on every replica, whether or not
the tick before has come to its end. With the pool each statement is a transaction of its own: the row
locks of the `FOR UPDATE SKIP LOCKED` are gone when the select has returned, and what it has selected
is as free for the next run as it was. ADR 0027 has replicas partition the work by `SKIP LOCKED`, and the
note on the method counts on a caller that opens a transaction; there is none here.

* A step is a statement or a dispatch: the locking select, a dispatch that comes out one way or the
  other, the `UPDATE` of a row. A run takes its rows in chunks of ten, whose calls stand in no order,
  and writes its failures back one after the other when all chunks are through.
* Two selects at the same instant do lock each other out. So a select may leave out rows, those that
  another statement has locked just then.
* A run that dies takes no more steps. An `UPDATE` that is sent goes through.

`Job.holds` is the row a run has selected and not written back yet. Runs that never select what is
held dispatch a row successfully once at most, and nobody writes back an attempt of somebody else
(`dispatched_once`); runs that do can dispatch it twice (`overlapping_runs_dispatch_twice`).
-/

namespace QuizBackend.Outbox.Parallel

open Lib BaseOutboxProcessor Table

/-! ## The system -/

inductive Phase
  | queued
  | dispatched (result : Delivery)
  | settled
  deriving DecidableEq

structure Job where
  run : Nat
  nowIso : Int
  row : OutboxRow
  phase : Phase := .queued

def Job.holds (job : Job) : Option String :=
  if job.phase = .settled then none else some job.row.eventId

structure Run where
  nowIso : Int
  selected : Bool := false

/-- What has happened to the rows: how a dispatch came out, and which `UPDATE` has taken effect on
which attempt. -/
inductive Record
  | dispatched (run : Nat) (eventId : String) (result : Delivery)
  | processed (run : Nat) (eventId : String) (attemptCount : Nat)
  | failed (run : Nat) (eventId : String) (attemptCount : Nat) (outcome : FailureOutcome)
  deriving DecidableEq

structure State where
  events : OutboxEvents
  clock : Int
  runs : List Run
  jobs : List Job
  log : List Record

def State.initial (events : OutboxEvents) (clock : Int) : State := ⟨events, clock, [], [], []⟩

inductive Action
  | insert (e : NewEvent)
  | tick (ms : Nat)
  | start
  | select (run : Nat) (locked : List String)
  | dispatch (job : Nat) (result : Delivery)
  | update (job : Nat)

def lockingSelect (b : BaseOutboxProcessor) (events : OutboxEvents) (nowIso : Int)
    (locked : List String) : List OutboxRow :=
  poll events (fun row => b.buildPendingWhere nowIso row && !locked.contains row.eventId) b.batchSize

def State.jobsOf (s : State) (run : Nat) : List Job := s.jobs.filter (·.run = run)

def State.place (s : State) (j : Nat) (job : Job) : Nat := (s.jobs.take j).countP (·.run = job.run)

section

variable (conflict : Thrown → Bool)

/-- The call for the row has returned, from `markProcessed` or with an error. -/
def Job.returned (job : Job) : Bool :=
  match job.phase with
  | .queued => false
  | .dispatched d => !(dispatchResult conflict d).ok
  | .settled => true

def State.mayDispatch (s : State) (j : Nat) (job : Job) : Bool :=
  job.phase = .queued ∧
    ((s.jobsOf job.run).take (10 * (s.place j job / 10))).all (·.returned conflict) = true

/-- An `UPDATE` of `markProcessed` follows its dispatch; one of `handleFailure` comes when all chunks
are through and the failures before it are written. -/
def State.mayUpdate (s : State) (j : Nat) (job : Job) (d : Delivery) :
    Bool :=
  (dispatchResult conflict d).ok ∨
    (s.jobsOf job.run).all (·.returned conflict) = true ∧
      ((s.jobsOf job.run).take (s.place j job)).all (·.phase = .settled) = true

end

def Job.record (b : BaseOutboxProcessor) (conflict : Thrown → Bool) (job : Job) (d : Delivery) :
    Record :=
  match dispatchResult conflict d with
  | .failed e => .failed job.run job.row.eventId job.row.attemptCount (b.failureOutcome job.row e)
  | _ => .processed job.run job.row.eventId job.row.attemptCount

/-- The row is there and `processed_at IS NULL`. -/
def isPending (events : OutboxEvents) (eventId : String) : Bool :=
  (events.find? eventId).any (·.processedAt.isNone)

def State.update (b : BaseOutboxProcessor) (conflict : Thrown → Bool) (s : State) (j : Nat) (job : Job)
    (d : Delivery) : State :=
  { s with
    events := s.events.modify job.row.eventId (b.writeBack conflict job.row job.nowIso d)
      (b.keepsIdentity conflict job.row job.nowIso d).eventId
    jobs := s.jobs.set j { job with phase := .settled }
    log := if isPending s.events job.row.eventId then s.log ++ [job.record b conflict d] else s.log }

def step (b : BaseOutboxProcessor) (conflict : Thrown → Bool) (s : State) : Action → Option State
  | .insert e => some { s with events := insertEvent s.events e }
  | .tick ms => some { s with clock := s.clock + ms }
  | .start => some { s with runs := s.runs ++ [{ nowIso := s.clock }] }
  | .select i locked => do
    let run ← s.runs[i]?
    if run.selected then none
    else some { s with
      runs := s.runs.set i { run with selected := true }
      jobs := s.jobs ++ (lockingSelect b s.events run.nowIso locked).map fun row =>
        { run := i, nowIso := run.nowIso, row } }
  | .dispatch j d => do
    let job ← s.jobs[j]?
    if s.mayDispatch conflict j job then
      some { s with
        jobs := s.jobs.set j { job with phase := .dispatched d }
        log := s.log ++ [.dispatched job.run job.row.eventId d] }
    else none
  | .update j => do
    let job ← s.jobs[j]?
    match job.phase with
    | .dispatched d => if s.mayUpdate conflict j job d then some (s.update b conflict j job d) else none
    | _ => none

/-! ## Statements -/

def Record.isSuccess (eventId : String) : Record → Bool
  | .dispatched _ id (.ok ()) => id = eventId
  | _ => false

/-- No row is dispatched successfully twice, and none is marked processed by one run and retried or
dead-lettered by another; only that a run has retried it before the other came to select it, and so
with an earlier attempt. -/
structure DispatchedOnce (log : List Record) : Prop where
  once : ∀ eventId, log.countP (·.isSuccess eventId) ≤ 1
  apart : ∀ run run' eventId attemptCount attemptCount' outcome,
    .processed run eventId attemptCount ∈ log → .failed run' eventId attemptCount' outcome ∈ log →
      run ≠ run' → outcome = .retried ∧ attemptCount' < attemptCount

/-- No row is selected that another worker is busy with. -/
def SelectsFree (b : BaseOutboxProcessor) (s : State) : Action → Prop
  | .select i locked => ∀ run ∈ s.runs[i]?, ∀ row ∈ lockingSelect b s.events run.nowIso locked,
    ∀ job ∈ s.jobs, job.holds ≠ some row.eventId
  | _ => True

instance (b : BaseOutboxProcessor) (s : State) : ∀ a, Decidable (SelectsFree b s a)
  | .select i locked => inferInstanceAs (Decidable (∀ run ∈ s.runs[i]?,
      ∀ row ∈ lockingSelect b s.events run.nowIso locked, ∀ job ∈ s.jobs, job.holds ≠ some row.eventId))
  | .insert _ | .tick _ | .start | .dispatch .. | .update _ => .isTrue trivial

/-! ## What a row comes to -/

/-- Rows stay; what is stamped stays stamped, and attempts only add up. -/
def Advances (t t' : OutboxEvents) : Prop :=
  ∀ id row, t.find? id = some row → ∃ row', t'.find? id = some row' ∧
    (row.processedAt ≠ none → row'.processedAt ≠ none) ∧
    (row.failedAt ≠ none → row'.failedAt ≠ none) ∧ row.attemptCount ≤ row'.attemptCount

theorem advances_refl (t : OutboxEvents) : Advances t t :=
  fun _ row hrow => ⟨row, hrow, id, id, Nat.le_refl _⟩

theorem advances_insertEvent (t : OutboxEvents) (e : NewEvent) : Advances t (insertEvent t e) := by
  intro id row hrow
  have hkept := insertEvent_find? (e := e) (mem_of_find? hrow)
  rw [key_of_find? hrow] at hkept
  exact ⟨row, hkept, fun h => h, fun h => h, Nat.le_refl _⟩

section WriteBack

variable {b : BaseOutboxProcessor} {conflict : Thrown → Bool} {row : OutboxRow} {d : Delivery}

theorem writeBack_processed (nowIso : Int) (hpending : row.processedAt = none)
    (hok : (dispatchResult conflict d).ok = true) :
    b.writeBack conflict row nowIso d row = setProcessed nowIso row := by
  have hnone : row.processedAt.isNone = true := Option.isNone_iff_eq_none.mpr hpending
  cases d with
  | ok u => exact if_pos hnone
  | error e =>
    cases hconflict : conflict e with
    | true => simp only [writeBack, hconflict, if_true, unlessProcessed, hnone]
    | false => simp [dispatchResult, hconflict, DispatchResult.ok] at hok

theorem writeBack_failed (nowIso : Int) (hpending : row.processedAt = none) {e : Thrown}
    (hfailed : dispatchResult conflict d = .failed e) :
    (b.writeBack conflict row nowIso d row).attemptCount = row.attemptCount + 1 ∧
      (b.writeBack conflict row nowIso d row).processedAt = none ∧
      (b.failureOutcome row e = .dlq → (b.writeBack conflict row nowIso d row).failedAt ≠ none) := by
  have hnone : row.processedAt.isNone = true := Option.isNone_iff_eq_none.mpr hpending
  cases d with
  | ok u => cases hfailed
  | error e' =>
    cases hconflict : conflict e' with
    | true => simp [dispatchResult, hconflict] at hfailed
    | false =>
      have he : e' = e := by simpa [dispatchResult, hconflict] using hfailed
      subst he
      simp only [writeBack, hconflict, Bool.false_eq_true, if_false,
        handleFailure, unlessProcessed, hnone, if_true,
        failureOutcome]
      split
      · exact ⟨rfl, hpending, fun _ => Option.some_ne_none _⟩
      · exact ⟨rfl, hpending, fun h => by cases h⟩

theorem advances_writeBack {t : OutboxEvents} {id : String} (nowIso : Int)
    (hrow : t.find? id = some row) (hpending : row.processedAt = none) (hlive : row.failedAt = none) :
    Advances t (t.modify id (b.writeBack conflict row nowIso d)
      (b.keepsIdentity conflict row nowIso d).eventId) := by
  intro k row' hrow'
  by_cases hk : k = id
  · subst hk
    rw [hrow, Option.some.injEq] at hrow'
    subst hrow'
    refine ⟨_, find?_modify_self hrow, fun h => absurd hpending h, fun h => absurd hlive h, ?_⟩
    cases hresult : dispatchResult conflict d with
    | failed e =>
      rw [(writeBack_failed nowIso hpending hresult).1]
      exact Nat.le_succ _
    | _ =>
      rw [writeBack_processed nowIso hpending (by rw [hresult]; rfl)]
      exact Nat.le_refl _
  · refine ⟨row', ?_, fun h => h, fun h => h, Nat.le_refl _⟩
    rw [find?_modify_ne hk, hrow']

end WriteBack

/-! ## The log -/

structure WritesOk (t : OutboxEvents) (log : List Record) : Prop where
  processed : ∀ run eventId n, .processed run eventId n ∈ log →
    ∃ row, t.find? eventId = some row ∧ row.processedAt ≠ none
  failed : ∀ run eventId n outcome, .failed run eventId n outcome ∈ log →
    ∃ row, t.find? eventId = some row ∧ n < row.attemptCount ∧
      (outcome = .dlq → row.failedAt ≠ none)
  apart : ∀ run run' eventId n n' outcome, .processed run eventId n ∈ log →
    .failed run' eventId n' outcome ∈ log → outcome = .retried ∧ n' < n

variable {eventId : String} {j : Nat} {job : Job}

section Writes

variable {t t' : OutboxEvents} {log : List Record}

theorem mem_of_mem_append_ne {x y : Record} (h : x ∈ log ++ [y]) (hne : x ≠ y) : x ∈ log := by
  rcases List.mem_append.mp h with hold | hnew
  · exact hold
  · exact absurd (List.mem_singleton.mp hnew) hne

theorem writesOk_nil (t : OutboxEvents) : WritesOk t [] := by
  refine ⟨?_, ?_, ?_⟩
  · intro run eventId n hin
    cases hin
  · intro run eventId n outcome hin
    cases hin
  · intro run run' eventId n n' outcome hin
    cases hin

section

variable (h : WritesOk t log)
include h

theorem WritesOk.advance (hadvances : Advances t t') : WritesOk t' log := by
  refine ⟨?_, ?_, h.apart⟩
  · intro run eventId n hin
    obtain ⟨row, hrow, hset⟩ := h.processed run eventId n hin
    obtain ⟨row', hrow', hkept, -⟩ := hadvances eventId row hrow
    exact ⟨row', hrow', hkept hset⟩
  · intro run eventId n outcome hin
    obtain ⟨row, hrow, hlt, hdlq⟩ := h.failed run eventId n outcome hin
    obtain ⟨row', hrow', -, hkept, hle⟩ := hadvances eventId row hrow
    exact ⟨row', hrow', Nat.lt_of_lt_of_le hlt hle, fun ho => hkept (hdlq ho)⟩

theorem WritesOk.dispatched (run : Nat) (eventId : String) (d : Delivery) :
    WritesOk t (log ++ [.dispatched run eventId d]) := by
  have hprocessed : ∀ run' eventId' n,
      .processed run' eventId' n ∈ log ++ [.dispatched run eventId d] →
        .processed run' eventId' n ∈ log :=
    fun _ _ _ hin => mem_of_mem_append_ne hin (by simp)
  have hfailed : ∀ run' eventId' n outcome,
      .failed run' eventId' n outcome ∈ log ++ [.dispatched run eventId d] →
        .failed run' eventId' n outcome ∈ log :=
    fun _ _ _ _ hin => mem_of_mem_append_ne hin (by simp)
  refine ⟨?_, ?_, ?_⟩
  · intro run eventId n hin
    exact h.processed run eventId n (hprocessed _ _ _ hin)
  · intro run eventId n outcome hin
    exact h.failed run eventId n outcome (hfailed _ _ _ _ hin)
  · intro run run' eventId n n' outcome hp hf
    exact h.apart run run' eventId n n' outcome (hprocessed _ _ _ hp) (hfailed _ _ _ _ hf)

theorem WritesOk.markProcessed (hadvances : Advances t t')
    {row row' : OutboxRow} {run : Nat} (hrow : t.find? eventId = some row)
    (hlive : row.failedAt = none) (hrow' : t'.find? eventId = some row')
    (hset : row'.processedAt ≠ none) :
    WritesOk t' (log ++ [.processed run eventId row.attemptCount]) := by
  have hkept := h.advance hadvances
  -- who has failed it before has left it alive, at an earlier attempt
  have hbefore : ∀ run' n' outcome, .failed run' eventId n' outcome ∈ log →
      outcome = .retried ∧ n' < row.attemptCount := by
    intro run' n' outcome hin
    obtain ⟨row₀, hrow₀, hlt, hdlq⟩ := h.failed run' eventId n' outcome hin
    rw [hrow, Option.some.injEq] at hrow₀
    subst hrow₀
    refine ⟨?_, hlt⟩
    cases outcome with
    | retried => rfl
    | dlq => exact absurd hlive (hdlq rfl)
  have hfailed : ∀ run' eventId' n' outcome,
      Record.failed run' eventId' n' outcome ∈ log ++ [.processed run eventId row.attemptCount] →
        .failed run' eventId' n' outcome ∈ log :=
    fun _ _ _ _ hin => mem_of_mem_append_ne hin (by simp)
  refine ⟨?_, ?_, ?_⟩
  · intro run' eventId' n' hin
    rcases List.mem_append.mp hin with hin | hin
    · exact hkept.processed run' eventId' n' hin
    · cases List.mem_singleton.mp hin
      exact ⟨row', hrow', hset⟩
  · intro run' eventId' n' outcome hin
    exact hkept.failed run' eventId' n' outcome (hfailed _ _ _ _ hin)
  · intro run₁ run₂ eventId' n n' outcome hp hf
    rcases List.mem_append.mp hp with hp | hp
    · exact h.apart run₁ run₂ eventId' n n' outcome hp (hfailed _ _ _ _ hf)
    · cases List.mem_singleton.mp hp
      exact hbefore run₂ n' outcome (hfailed _ _ _ _ hf)

theorem WritesOk.handleFailure (hadvances : Advances t t')
    {row row' : OutboxRow} {run : Nat} {outcome : FailureOutcome}
    (hrow : t.find? eventId = some row) (hpending : row.processedAt = none)
    (hrow' : t'.find? eventId = some row') (hcount : row'.attemptCount = row.attemptCount + 1)
    (hdlq : outcome = .dlq → row'.failedAt ≠ none) :
    WritesOk t' (log ++ [.failed run eventId row.attemptCount outcome]) := by
  have hkept := h.advance hadvances
  have hprocessed : ∀ run' eventId' n',
      Record.processed run' eventId' n' ∈ log ++ [.failed run eventId row.attemptCount outcome] →
        .processed run' eventId' n' ∈ log :=
    fun _ _ _ hin => mem_of_mem_append_ne hin (by simp)
  refine ⟨?_, ?_, ?_⟩
  · intro run' eventId' n' hin
    exact hkept.processed run' eventId' n' (hprocessed _ _ _ hin)
  · intro run' eventId' n' outcome' hin
    rcases List.mem_append.mp hin with hin | hin
    · exact hkept.failed run' eventId' n' outcome' hin
    · cases List.mem_singleton.mp hin
      refine ⟨row', hrow', ?_, hdlq⟩
      rw [hcount]
      exact Nat.lt_succ_self _
  · intro run₁ run₂ eventId' n n' outcome' hp hf
    have hp := hprocessed _ _ _ hp
    rcases List.mem_append.mp hf with hf | hf
    · exact h.apart run₁ run₂ eventId' n n' outcome' hp hf
    · -- the row is pending, so nobody has marked it processed
      cases List.mem_singleton.mp hf
      obtain ⟨row₀, hrow₀, hset⟩ := h.processed run₁ eventId n hp
      rw [hrow, Option.some.injEq] at hrow₀
      subst hrow₀
      exact absurd hpending hset

end

end Writes

/-! ## Runs that never select what is held -/

def Job.HasDelivered (eventId : String) (job : Job) : Prop :=
  job.holds = some eventId ∧ job.phase = .dispatched (.ok ())

def State.Delivered (s : State) (eventId : String) : Prop :=
  (∃ row, s.events.find? eventId = some row ∧ row.processedAt ≠ none) ∨
    ∃ job ∈ s.jobs, job.HasDelivered eventId

theorem State.Delivered.advance {s s' : State} (h : s.Delivered eventId)
    (hadvances : Advances s.events s'.events)
    (hjobs : (∃ job ∈ s.jobs, job.HasDelivered eventId) → s'.Delivered eventId) :
    s'.Delivered eventId := by
  rcases h with ⟨row, hrow, hprocessed⟩ | hjob
  · obtain ⟨row', hrow', hkept, -⟩ := hadvances eventId row hrow
    exact .inl ⟨row', hrow', hkept hprocessed⟩
  · exact hjobs hjob

structure Inv (s : State) : Prop where
  exclusive : Exclusive Job.holds s.jobs
  asSelected : ∀ job ∈ s.jobs, ∀ eventId, job.holds = some eventId →
    s.events.find? eventId = some job.row ∧ job.row.processedAt = none ∧ job.row.failedAt = none
  writes : WritesOk s.events s.log
  once : ∀ eventId, s.log.countP (·.isSuccess eventId) ≤ 1
  delivered : ∀ eventId, s.log.countP (·.isSuccess eventId) ≠ 0 → s.Delivered eventId

theorem Inv.dispatchedOnce {s : State} (h : Inv s) : DispatchedOnce s.log :=
  ⟨h.once, fun run run' eventId n n' outcome hp hf _ =>
    h.writes.apart run run' eventId n n' outcome hp hf⟩

theorem inv_initial (events : OutboxEvents) (clock : Int) : Inv (.initial events clock) where
  exclusive := exclusive_nil
  asSelected := by
    intro job hjob
    cases hjob
  writes := writesOk_nil events
  once := fun _ => Nat.zero_le _
  delivered := fun _ h => absurd rfl h

section Step

variable {b : BaseOutboxProcessor} {conflict : Thrown → Bool} {s : State}

theorem Inv.insert (h : Inv s) (e : NewEvent) :
    Inv { s with events := insertEvent s.events e } where
  exclusive := h.exclusive
  asSelected := by
    intro job hjob eventId hholds
    obtain ⟨hrow, hpending⟩ := h.asSelected job hjob eventId hholds
    refine ⟨?_, hpending⟩
    have hkept := insertEvent_find? (e := e) (mem_of_find? hrow)
    rwa [key_of_find? hrow] at hkept
  writes := h.writes.advance (advances_insertEvent s.events e)
  once := h.once
  delivered := by
    intro eventId hcount
    exact (h.delivered eventId hcount).advance (advances_insertEvent s.events e) .inr

theorem of_mem_lockingSelect {events : OutboxEvents} {nowIso : Int} {locked : List String}
    {row : OutboxRow} (h : row ∈ lockingSelect b events nowIso locked) :
    events.find? row.eventId = some row ∧ row.processedAt = none ∧ row.failedAt = none := by
  obtain ⟨hmem, hwhere⟩ := mem_of_mem_poll h
  simp only [buildPendingWhere, isDue, Bool.and_eq_true,
    Option.isNone_iff_eq_none] at hwhere
  exact ⟨find?_of_mem hmem, hwhere.1.1.2.1.1, hwhere.1.1.2.1.2⟩

theorem Inv.select (h : Inv s) {runs : List Run} {i : Nat} {nowIso : Int} {locked : List String}
    (hfree : ∀ row ∈ lockingSelect b s.events nowIso locked,
      ∀ job ∈ s.jobs, job.holds ≠ some row.eventId) :
    Inv { s with
      runs := runs
      jobs := s.jobs ++ (lockingSelect b s.events nowIso locked).map fun row =>
        { run := i, nowIso, row } } where
  exclusive := by
    refine h.exclusive.append_list (exclusive_map (fun _ => rfl) (nodup_poll ..)) ?_
    intro job hjob eventId hholds job' hjob'
    obtain ⟨row, hrow, rfl⟩ := List.mem_map.mp hjob
    cases hholds
    exact hfree row hrow job' hjob'
  asSelected := by
    intro job hjob eventId hholds
    rcases List.mem_append.mp hjob with hjob | hjob
    · exact h.asSelected job hjob eventId hholds
    · obtain ⟨row, hrow, rfl⟩ := List.mem_map.mp hjob
      cases hholds
      exact of_mem_lockingSelect hrow
  writes := h.writes
  once := h.once
  delivered := by
    intro eventId hcount
    refine (h.delivered eventId hcount).advance (advances_refl _) ?_
    rintro ⟨job, hjob, hdelivered⟩
    exact .inr ⟨job, List.mem_append.mpr (.inl hjob), hdelivered⟩

theorem Inv.eq_of_holds (h : Inv s) {job' : Job} (hj : s.jobs[j]? = some job)
    (hjob' : job' ∈ s.jobs) (hholds : job.holds = some eventId)
    (hholds' : job'.holds = some eventId) : job' = job := by
  obtain ⟨i, hi⟩ := List.mem_iff_getElem?.mp hjob'
  have hij := h.exclusive i j job' job eventId hi hj hholds' hholds
  rw [hij, hj, Option.some.injEq] at hi
  exact hi.symm

theorem Job.holds_of_ne_settled (h : job.phase ≠ .settled) :
    job.holds = some job.row.eventId := if_neg h

/-- A row that is queued has not been dispatched successfully: it would be processed, or somebody else
would hold it. -/
theorem Inv.countP_queued (h : Inv s) (hj : s.jobs[j]? = some job) (hqueued : job.phase = .queued) :
    s.log.countP (·.isSuccess job.row.eventId) = 0 := by
  have hheld : job.holds = some job.row.eventId := by
    apply Job.holds_of_ne_settled
    rw [hqueued]
    decide
  obtain ⟨hrow, hpending, -⟩ := h.asSelected job (List.mem_of_getElem? hj) _ hheld
  by_contra hcount
  rcases h.delivered _ hcount with ⟨row, hrow', hprocessed⟩ | ⟨job', hjob', hholds', hphase⟩
  · rw [hrow, Option.some.injEq] at hrow'
    subst hrow'
    exact hprocessed hpending
  · rw [h.eq_of_holds hj hjob' hheld hholds', hqueued] at hphase
    cases hphase

theorem countP_dispatched (run : Nat) (eventId eventId' : String) (d : Delivery) :
    [Record.dispatched run eventId d].countP (·.isSuccess eventId')
      = if d = .ok () ∧ eventId = eventId' then 1 else 0 := by
  cases d with
  | ok u => simp [Record.isSuccess, List.countP_cons]
  | error e => simp [Record.isSuccess]

theorem Inv.dispatch (h : Inv s) (hj : s.jobs[j]? = some job) (hqueued : job.phase = .queued)
    (d : Delivery) :
    Inv { s with
      jobs := s.jobs.set j { job with phase := .dispatched d }
      log := s.log ++ [.dispatched job.run job.row.eventId d] } := by
  have hsame : ({ job with phase := .dispatched d } : Job).holds = job.holds := by
    rw [Job.holds_of_ne_settled (by simp), Job.holds_of_ne_settled (by simp [hqueued])]
  have hzero := h.countP_queued hj hqueued
  refine ⟨?_, ?_, ?_, ?_, ?_⟩
  · refine h.exclusive.set hj fun eventId hholds => .inl ?_
    rw [← hholds, hsame]
  · intro job' hjob' eventId hholds
    rcases List.mem_or_eq_of_mem_set hjob' with hold | rfl
    · exact h.asSelected job' hold eventId hholds
    · exact h.asSelected job (List.mem_of_getElem? hj) eventId (hsame ▸ hholds)
  · exact h.writes.dispatched job.run job.row.eventId d
  · intro eventId
    rw [List.countP_append, countP_dispatched]
    split
    · rename_i hnew
      rw [← hnew.2, hzero]
    · exact h.once eventId
  · intro eventId hcount
    rw [List.countP_append, countP_dispatched] at hcount
    split at hcount
    · rename_i hnew
      obtain ⟨rfl, rfl⟩ := hnew
      exact .inr ⟨_, mem_set_self hj, Job.holds_of_ne_settled (by simp), rfl⟩
    · refine (h.delivered eventId hcount).advance (advances_refl _) fun hjob => .inr ?_
      -- the job itself was queued
      refine (exists_mem_set hj hjob).resolve_left fun hdelivered => ?_
      rw [Job.HasDelivered, hqueued] at hdelivered
      cases hdelivered.2

theorem find?_update (j : Nat) (job : Job) (d : Delivery) (eventId : String) :
    (s.update b conflict j job d).events.find? eventId
      = if eventId = job.row.eventId
        then (s.events.find? job.row.eventId).map (b.writeBack conflict job.row job.nowIso d)
        else s.events.find? eventId := by
  rw [State.update, find?_modify]

theorem isSuccess_record (job : Job) (d : Delivery) (eventId : String) :
    (job.record b conflict d).isSuccess eventId = false := by
  unfold Job.record
  split <;> rfl

theorem Inv.update (h : Inv s) {d : Delivery} (hj : s.jobs[j]? = some job)
    (hphase : job.phase = .dispatched d) : Inv (s.update b conflict j job d) := by
  have hheld : job.holds = some job.row.eventId :=
    Job.holds_of_ne_settled (by simp [hphase])
  obtain ⟨hrow, hpending, hlive⟩ := h.asSelected job (List.mem_of_getElem? hj) _ hheld
  have hisPending : isPending s.events job.row.eventId = true := by
    simp [isPending, hrow, hpending]
  have hadvances : Advances s.events (s.update b conflict j job d).events :=
    advances_writeBack job.nowIso hrow hpending hlive
  have hrow' : (s.update b conflict j job d).events.find? job.row.eventId
      = some (b.writeBack conflict job.row job.nowIso d job.row) := by
    rw [find?_update, if_pos rfl, hrow, Option.map_some]
  have hlog : (s.update b conflict j job d).log = s.log ++ [job.record b conflict d] :=
    if_pos hisPending
  have hcount : ∀ eventId, (s.update b conflict j job d).log.countP (·.isSuccess eventId)
      = s.log.countP (·.isSuccess eventId) := by
    intro eventId
    rw [hlog, List.countP_append]
    simp [isSuccess_record]
  have hsettled : ({ job with phase := .settled } : Job).holds = none := if_pos rfl
  refine ⟨?_, ?_, ?_, ?_, ?_⟩
  · refine h.exclusive.set hj fun eventId hholds => ?_
    rw [hsettled] at hholds
    cases hholds
  · intro job' hjob' eventId hholds
    rcases mem_set_cases hjob' with rfl | ⟨i, hi, hold⟩
    · rw [hsettled] at hholds
      cases hholds
    · -- another job holds another row
      have hne : eventId ≠ job.row.eventId := by
        rintro rfl
        exact hi (h.exclusive i j job' job _ hold hj hholds hheld)
      obtain ⟨hfind, hrest⟩ := h.asSelected job' (List.mem_of_getElem? hold) eventId hholds
      refine ⟨?_, hrest⟩
      rw [find?_update, if_neg hne, hfind]
  · rw [hlog, Job.record]
    cases hresult : dispatchResult conflict d with
    | failed e =>
      obtain ⟨hattempt, -, hdlq⟩ := writeBack_failed (b := b) job.nowIso hpending hresult
      exact h.writes.handleFailure hadvances hrow hpending hrow' hattempt hdlq
    | _ =>
      refine h.writes.markProcessed hadvances hrow hlive hrow' ?_
      rw [writeBack_processed job.nowIso hpending (by rw [hresult]; rfl)]
      exact Option.some_ne_none _
  · intro eventId
    rw [hcount]
    exact h.once eventId
  · intro eventId hne
    rw [hcount] at hne
    refine (h.delivered eventId hne).advance hadvances fun hjob => ?_
    rcases exists_mem_set hj hjob with hself | hother
    · -- it is the job itself, whose row is processed now
      obtain ⟨hholds, hok⟩ := hself
      rw [hheld, Option.some.injEq] at hholds
      rw [hphase, Phase.dispatched.injEq] at hok
      subst hholds hok
      refine .inl ⟨_, hrow', ?_⟩
      rw [writeBack_processed job.nowIso hpending rfl]
      exact Option.some_ne_none _
    · exact .inr hother

/-- **A step keeps it**, if no select returns what is held. -/
theorem Inv.step {s' : State} {a : Action} (h : Inv s) (hfree : SelectsFree b s a)
    (hstep : step b conflict s a = some s') : Inv s' := by
  cases a with
  | insert e =>
    cases hstep
    exact h.insert e
  | tick ms =>
    cases hstep
    exact ⟨h.exclusive, h.asSelected, h.writes, h.once, h.delivered⟩
  | start =>
    cases hstep
    exact ⟨h.exclusive, h.asSelected, h.writes, h.once, h.delivered⟩
  | select i locked =>
    obtain ⟨run, hrun, hstep⟩ := Option.bind_eq_some_iff.mp hstep
    split at hstep
    · cases hstep
    · cases hstep
      exact h.select (hfree run hrun)
  | dispatch j d =>
    obtain ⟨job, hj, hstep⟩ := Option.bind_eq_some_iff.mp hstep
    split at hstep
    · rename_i hmay
      cases hstep
      exact h.dispatch hj (of_decide_eq_true hmay).1 d
    · cases hstep
  | update j =>
    obtain ⟨job, hj, hstep⟩ := Option.bind_eq_some_iff.mp hstep
    split at hstep
    · rename_i d hphase
      split at hstep
      · cases hstep
        exact h.update hj hphase
      · cases hstep
    · cases hstep

end Step

/-- **Runs of one processor, side by side.** While no select returns a row that some run has selected
and not written back yet, no row is dispatched successfully twice, and none is marked processed by one
run and retried or dead-lettered by another. -/
theorem dispatched_once (b : BaseOutboxProcessor) (conflict : Thrown → Bool) (events : OutboxEvents)
    (clock : Int) (as : List Action)
    (h : Along (step b conflict) (SelectsFree b) (.initial events clock) as) :
    Always (step b conflict) (fun s => DispatchedOnce s.log) (.initial events clock) as := by
  intro pre m hpre hm
  have hinv : Inv m := (h.of_prefix hpre).invariant
    (fun _ _ _ hi hfree hstep => hi.step hfree hstep) hm (inv_initial events clock)
  exact hinv.dispatchedOnce

/-! Two ticks that overlap, and two that do not. -/

def rankChanged : NewEvent :=
  { eventId := "01900000-0000-7000-8000-00000000000d", aggregateType := "ranking",
    eventType := "rank.changed", payload := [("userId", .str "u1")], createdAt := 0
    nextAttemptAt := 0, idempotencyKey := none, correlationId := none }

abbrev rankingStep : State → Action → Option State :=
  step rankingOutboxProcessor isIdempotencyConflict

def subscriberError : Delivery := .error (.error "timeout")

/-- The first tick fails the event and is done with it; the second one, later, delivers it. -/
def oneAfterTheOther : List Action :=
  [.insert rankChanged, .start, .select 0 [], .dispatch 0 subscriberError, .update 0, .tick 60000,
   .start, .select 1 [], .dispatch 1 (.ok ()), .update 1]

theorem dispatched_once_oneAfterTheOther : ∃ s,
    exec rankingStep (.initial (Table.empty _) 0) oneAfterTheOther = some s ∧
      s.log.map (·.isSuccess rankChanged.eventId) = [false, false, true, false] ∧
      DispatchedOnce s.log := by
  refine exists_of_read (fun s => s.log.map (·.isSuccess rankChanged.eventId))
    [false, false, true, false] (by decide +kernel) fun s hs hread => ?_
  exact ⟨hread, dispatched_once rankingOutboxProcessor isIdempotencyConflict (Table.empty _) 0
    oneAfterTheOther (by decide +kernel) oneAfterTheOther s (List.prefix_refl _) hs⟩

def bothSelect : List Action :=
  [.insert rankChanged, .start, .start, .select 0 [], .select 1 []]

/-- Two ticks that overlap dispatch one event twice, both with success; or one of them retries it and
the other marks the same attempt processed. -/
theorem overlapping_runs_dispatch_twice :
    (∃ s, exec rankingStep (.initial (Table.empty _) 0)
        (bothSelect ++ [.dispatch 0 (.ok ()), .dispatch 1 (.ok ())]) = some s ∧
      s.log.countP (·.isSuccess rankChanged.eventId) = 2 ∧ ¬ DispatchedOnce s.log) ∧
    ∃ s, exec rankingStep (.initial (Table.empty _) 0)
        (bothSelect ++ [.dispatch 0 subscriberError, .dispatch 1 (.ok ()), .update 0, .update 1]) = some s ∧
      .failed 0 rankChanged.eventId 0 .retried ∈ s.log ∧
      .processed 1 rankChanged.eventId 0 ∈ s.log ∧ ¬ DispatchedOnce s.log := by
  refine ⟨?_, ?_⟩
  · refine exists_of_read (fun s => s.log.countP (·.isSuccess rankChanged.eventId)) 2
      (by decide +kernel) fun s hs hread => ⟨hread, fun hok => ?_⟩
    have hone := hok.once rankChanged.eventId
    omega
  · refine exists_of_read (fun s => decide (.failed 0 rankChanged.eventId 0 .retried ∈ s.log ∧
      .processed 1 rankChanged.eventId 0 ∈ s.log)) true (by decide +kernel) fun s hs hread => ?_
    obtain ⟨hfailed, hprocessed⟩ := of_decide_eq_true hread
    refine ⟨hfailed, hprocessed, fun hok => ?_⟩
    exact absurd (hok.apart 1 0 _ 0 0 .retried hprocessed hfailed (by decide)).2 (Nat.lt_irrefl 0)

end QuizBackend.Outbox.Parallel
