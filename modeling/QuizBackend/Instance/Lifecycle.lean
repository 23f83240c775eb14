import QuizBackend.Instance.Effects

/-!
# The states of an instance

Open, countdown, running, closed: every change of status is one of six, made by somebody who has seen
the status it is made from. An instance is set running at most once, since nothing leads back from
`running` and `closed`, and the event that says so is emitted with that write.
-/

namespace QuizBackend.Instance

open Lib Writer

/-! ## Statements -/

/-- The moves of the lifecycle. -/
def Allowed : InstanceStatus → InstanceStatus → Prop
  | .opened, .countdown | .countdown, .opened | .countdown, .running => True
  | .opened, .closed | .countdown, .closed | .running, .closed => True
  | _, _ => False

def DomainEvent.starts (instanceId : Uuid) : DomainEvent → Bool
  | .instanceStarted id _ _ => id = instanceId
  | _ => false

/-- How many `InstanceStarted` events of the instance have been emitted. -/
def State.startedEvents (s : State) (instanceId : Uuid) : Nat :=
  s.emitted.countP (·.starts instanceId)

/-- Countdowns have a start, running instances two players, and a start is announced once. -/
structure StateOk (s : State) : Prop where
  countdown : ∀ instanceId row, s.db.quizInstances.find? instanceId = some row →
    (row.countdownStartedAt ≠ none ↔ row.status = .countdown)
  running : ∀ instanceId row, s.db.quizInstances.find? instanceId = some row →
    row.status = .running → 2 ≤ s.db.countPlayers instanceId
  startedOnce : ∀ instanceId, s.startedEvents instanceId ≤ 1

/-- The action is the `UPDATE` with which the scheduler completes the countdown of the instance. -/
def State.Completes (s : State) (a : Action) (instanceId : Uuid) : Prop :=
  ∃ i id hostUserId nowIso version, a = .advance i id ∧ s.requests[i]?
    = some (.updateInstanceStatus (.completeByScheduler hostUserId) instanceId nowIso version)

structure ChangeOk (s : State) (a : Action) (row row' : QuizInstanceRow) : Prop where
  allowed : row'.status ≠ row.status →
    row'.version = row.version + 1 ∧ Allowed row.status row'.status
  closed : row.status = .closed → row'.status = .closed
  due : s.Completes a row.instanceId → row'.status ≠ row.status → row'.status = .running →
    ∃ countdownStartedAt, row.countdownStartedAt = some countdownStartedAt ∧
      countdownStartedAt + countdownDurationMs ≤ s.clock

/-- Every instance stays, and its change is an allowed one. -/
def StepOk (s : State) (a : Action) (s' : State) : Prop :=
  ∀ instanceId row, s.db.quizInstances.find? instanceId = some row →
    ∃ row', s'.db.quizInstances.find? instanceId = some row' ∧ ChangeOk s a row row'

/-! ## The writers -/

variable {row row' : QuizInstanceRow} {k : Uuid}

/-- **What a writer has seen allows what it writes.** -/
theorem Writer.allowed_of_pre {w : Writer} {clock nowIso version : Int} (h : w.Pre clock row) :
    Allowed row.status (row.update (w.params nowIso version)).status := by
  cases w with
  | startCountdown userId =>
    rw [show row.status = .opened from h]
    trivial
  | cancelCountdown userId reason =>
    rw [show row.status = .countdown from h]
    trivial
  | startInstance userId =>
    rw [show row.status = .countdown from h]
    trivial
  | closeInstance userId fromCountdown =>
    show Allowed row.status .closed
    cases hstatus : row.status with
    | closed => exact absurd hstatus h.1
    | finished => exact absurd hstatus h.2
    | opened | countdown | running => trivial
  | cancelByScheduler hostUserId =>
    rw [show row.status = .countdown from h]
    trivial
  | completeByScheduler hostUserId =>
    rw [show row.status = .countdown from h.1]
    trivial

theorem Writer.starts_iff (w : Writer) (nowIso version : Int) :
    (w.params nowIso version).status = .running ↔ w.starts = true := by
  cases w <;> simp [params, starts]

theorem Writer.countP_events (w : Writer) (instanceId nowIso) (k : Uuid) :
    (w.events instanceId nowIso).countP (·.starts k)
      = if w.starts = true ∧ instanceId = k then 1 else 0 := by
  cases w with
  | closeInstance userId fromCountdown => cases fromCountdown <;> rfl
  | startInstance userId => simp [events, DomainEvent.starts, starts, List.countP_cons]
  | completeByScheduler hostUserId =>
    simp [events, DomainEvent.starts, starts, List.countP_cons]
  | _ => rfl

theorem not_running_of_allowed {st st' : InstanceStatus} (h : Allowed st st') :
    (st' = .running → st = .countdown) ∧ (st = .running → st' = .closed) ∧ st ≠ .closed := by
  revert h
  cases st <;> cases st' <;> simp [Allowed]

/-! ## Steps -/

def NotYetStarted (s : State) : Prop :=
  ∀ instanceId, (∀ row, s.db.quizInstances.find? instanceId = some row →
    row.status = .opened ∨ row.status = .countdown) → s.startedEvents instanceId = 0

structure LifecycleInv (s : State) : Prop where
  inv : Inv s
  ok : StateOk s
  notYet : NotYetStarted s

theorem lifecycleInv_initial (clock : Int) : LifecycleInv (.initial clock) where
  inv := inv_initial clock
  ok := by
    refine ⟨?_, ?_, fun _ => Nat.zero_le _⟩
    · intro instanceId row hrow
      cases hrow
    · intro instanceId row hrow
      cases hrow
  notYet := fun _ _ => rfl

section Step

variable {s s' : State} {a : Action} {w : Write} {es : List DomainEvent}

theorem find?_cases (h : Licensed s.db s.clock w es)
    (hrow' : (s.db.apply w).quizInstances.find? k = some row') :
    (s.db.quizInstances.find? k = none ∧ row'.status = .opened ∧ row'.Valid) ∨
      ∃ row, s.db.quizInstances.find? k = some row ∧ row' = w.edits row := by
  rw [find?_quizInstances_apply h] at hrow'
  cases h with
  | create fresh valid opened =>
    simp only [Write.newInstance] at hrow'
    split at hrow'
    · rename_i hk
      cases hrow'
      exact .inl ⟨hk ▸ fresh, opened, valid⟩
    · exact .inr ⟨row', hrow', rfl⟩
  | nothing =>
    obtain ⟨row, hrow, rfl⟩ := Option.map_eq_some_iff.mp hrow'
    exact .inr ⟨row, hrow, rfl⟩
  | update found =>
    obtain ⟨row, hrow, rfl⟩ := Option.map_eq_some_iff.mp hrow'
    exact .inr ⟨row, hrow, rfl⟩
  | join found =>
    obtain ⟨row, hrow, rfl⟩ := Option.map_eq_some_iff.mp hrow'
    exact .inr ⟨row, hrow, rfl⟩

/-- **An edit**: none at all, or that of a writer who has seen the row. -/
theorem edits_cases (h : Licensed s.db s.clock w es) (hrow : s.db.quizInstances.find? k = some row) :
    (w.edits row = row ∧ es.countP (·.starts k) = 0) ∨
      ∃ writer nowIso, w.edits row = row.update (params nowIso row.version writer) ∧
        (w.edits row).Valid ∧ writer.Pre s.clock row ∧
        (writer.starts = true → minPlayersPerInstance ≤ s.db.countPlayers k) ∧
        es.countP (·.starts k) = if writer.starts = true then 1 else 0 := by
  cases h with
  | nothing => exact .inl ⟨rfl, rfl⟩
  | create fresh => exact .inl ⟨rfl, rfl⟩
  | join found => exact .inl ⟨rfl, rfl⟩
  | @update writer instanceId nowIso row₀ found valid pre players =>
    have hid : row.instanceId = k := Table.key_of_find? hrow
    by_cases hk : instanceId = k
    · subst hk
      rw [found, Option.some.injEq] at hrow
      subst hrow
      have hedit : (Write.updateInstanceStatus instanceId
          (writer.params nowIso row₀.version)).edits row₀
            = row₀.update (writer.params nowIso row₀.version) := if_pos hid
      refine .inr ⟨writer, nowIso, hedit, hedit ▸ valid, pre, players, ?_⟩
      rw [countP_events]
      simp
    · refine .inl ⟨if_neg fun he => hk (he.symm.trans hid), ?_⟩
      rw [countP_events, if_neg fun hc => hk hc.2]

theorem countdown_iff_of_valid (h : row.Valid) :
    row.countdownStartedAt ≠ none ↔ row.status = .countdown := by
  rcases h.2.2.2.2 with ⟨hstatus, hsome⟩ | ⟨hstatus, hnone⟩
  · exact iff_of_true hsome hstatus
  · exact iff_of_false (not_not.mpr hnone) hstatus

theorem countP_starts_of_none (h : Licensed s.db s.clock w es)
    (hnone : s.db.quizInstances.find? k = none) : es.countP (·.starts k) = 0 := by
  cases h with
  | @update writer instanceId nowIso row found =>
    rw [countP_events, if_neg]
    rintro ⟨-, rfl⟩
    rw [hnone] at found
    cases found
  | nothing | create | join => rfl

theorem StateOk.countdown_apply (h : StateOk s) (hl : Licensed s.db s.clock w es)
    (hrow' : (s.db.apply w).quizInstances.find? k = some row') :
    row'.countdownStartedAt ≠ none ↔ row'.status = .countdown := by
  rcases find?_cases hl hrow' with ⟨-, -, hvalid⟩ | ⟨row, hrow, rfl⟩
  · exact countdown_iff_of_valid hvalid
  · rcases edits_cases hl hrow with ⟨hsame, -⟩ | ⟨writer, nowIso, -, hvalid, -⟩
    · rw [hsame]
      exact h.countdown k row hrow
    · exact countdown_iff_of_valid hvalid

theorem StateOk.running_apply (h : StateOk s) (hl : Licensed s.db s.clock w es)
    (hrow' : (s.db.apply w).quizInstances.find? k = some row') (hrunning : row'.status = .running) :
    2 ≤ (s.db.apply w).countPlayers k := by
  refine Nat.le_trans ?_ (countPlayers_le_apply hl k)
  rcases find?_cases hl hrow' with ⟨-, hopened, -⟩ | ⟨row, hrow, rfl⟩
  · rw [hrunning] at hopened
    cases hopened
  · rcases edits_cases hl hrow with ⟨hsame, -⟩ | ⟨writer, nowIso, hedit, -, -, hplayers, -⟩
    · rw [hsame] at hrunning
      exact h.running k row hrow hrunning
    · rw [hedit] at hrunning
      exact hplayers ((writer.starts_iff nowIso row.version).mp hrunning)

theorem LifecycleInv.startedOnce_apply (h : LifecycleInv s) (hl : Licensed s.db s.clock w es)
    (k : Uuid) : s.startedEvents k + es.countP (·.starts k) ≤ 1 := by
  have hone := h.ok.startedOnce k
  cases hrow : s.db.quizInstances.find? k with
  | none =>
    rw [countP_starts_of_none hl hrow]
    exact hone
  | some row =>
    rcases edits_cases hl hrow with ⟨-, hnone⟩ | ⟨writer, nowIso, -, -, hpre, -, hcount⟩
    · rw [hnone]
      exact hone
    · rw [hcount]
      split
      · rename_i hstarts
        have hallowed : Allowed row.status
            (row.update (writer.params nowIso row.version)).status := allowed_of_pre hpre
        have hcountdown := (not_running_of_allowed hallowed).1
          ((writer.starts_iff nowIso row.version).mpr hstarts)
        have hzero := h.notYet k fun row' hrow' => by
          rw [hrow, Option.some.injEq] at hrow'
          exact .inr (hrow' ▸ hcountdown)
        rw [hzero]
      · exact hone

theorem waiting_of_allowed {st st' : InstanceStatus} (h : Allowed st st')
    (hafter : st' = .opened ∨ st' = .countdown) : st = .opened ∨ st = .countdown := by
  revert h
  rcases hafter with rfl | rfl
  · cases st <;> simp [Allowed]
  · cases st <;> simp [Allowed]

theorem LifecycleInv.notYet_apply (h : LifecycleInv s) (hl : Licensed s.db s.clock w es)
    (hnot : ∀ row, (s.db.apply w).quizInstances.find? k = some row → row.status = .opened ∨
      row.status = .countdown) :
    s.startedEvents k + es.countP (·.starts k) = 0 := by
  cases hrow : s.db.quizInstances.find? k with
  | none =>
    rw [countP_starts_of_none hl hrow,
      h.notYet k fun row' hrow' => by rw [hrow] at hrow'; cases hrow']
  | some row =>
    have hafter := hnot (w.edits row) (find?_quizInstances_of_find? hl hrow)
    have hbefore : (row.status = .opened ∨ row.status = .countdown) → s.startedEvents k = 0 := by
      intro hwaiting
      refine h.notYet k fun row' hrow' => ?_
      rw [hrow, Option.some.injEq] at hrow'
      exact hrow' ▸ hwaiting
    rcases edits_cases hl hrow with ⟨hsame, hnone⟩ | ⟨writer, nowIso, hedit, -, hpre, -, hcount⟩
    · rw [hsame] at hafter
      rw [hnone, hbefore hafter]
    · rw [hedit] at hafter
      have hnostart : ¬ writer.starts = true := by
        intro hstarts
        have hrunning := (writer.starts_iff nowIso row.version).mpr hstarts
        rcases hafter with hopened | hcountdown
        · cases hopened.symm.trans hrunning
        · cases hcountdown.symm.trans hrunning
      rw [hcount, if_neg hnostart, hbefore (waiting_of_allowed (allowed_of_pre hpre) hafter)]

/-- **A step keeps what holds of every state.** -/
theorem LifecycleInv.step (h : LifecycleInv s) (hstep : step s a = some s') : LifecycleInv s' := by
  obtain ⟨hinv, -, w, es, hl, hdb, hes⟩ := step_spec h.inv hstep
  have hevents : ∀ k, s'.startedEvents k = s.startedEvents k + es.countP (·.starts k) := by
    intro k
    rw [State.startedEvents, hes, List.countP_append]
    rfl
  refine ⟨hinv, ⟨?_, ?_, ?_⟩, ?_⟩
  · intro k row' hrow'
    rw [hdb] at hrow'
    exact h.ok.countdown_apply hl hrow'
  · intro k row' hrow' hrunning
    rw [hdb] at hrow' ⊢
    exact h.ok.running_apply hl hrow' hrunning
  · intro k
    rw [hevents]
    exact h.startedOnce_apply hl k
  · intro k hnot
    rw [hdb] at hnot
    rw [hevents]
    exact h.notYet_apply hl hnot

theorem due_of_completes (h : Inv s) (hstep : Instance.step s a = some s')
    (hcompletes : s.Completes a k) (hrow : s.db.quizInstances.find? k = some row) :
    s'.db.quizInstances.find? k = some row ∨ row.Due s.clock := by
  obtain ⟨i, id, hostUserId, nowIso, version, rfl, hr⟩ := hcompletes
  have hok := h _ (List.mem_of_getElem? hr)
  simp only [Instance.step, hr, Option.bind_eq_bind, Option.bind_some, Request.next] at hstep
  cases hstep
  by_cases hcurrent : row.version = version
  · exact .inr (Lib.AsOf.holds hok.1 hrow hcurrent).2
  · -- somebody has written the instance since it was on the list
    left
    simp only [Db.updateInstanceStatus, hrow, ne_eq, hcurrent, not_false_eq_true, if_true]
    exact hrow

/-- **A step changes an instance as it may.** -/
theorem LifecycleInv.stepOk (h : LifecycleInv s) (hstep : Instance.step s a = some s') :
    StepOk s a s' := by
  intro k row hrow
  have hid : row.instanceId = k := Table.key_of_find? hrow
  obtain ⟨-, -, w, es, hl, hdb, -⟩ := step_spec h.inv hstep
  have hafter := find?_quizInstances_of_find? hl hrow
  rw [← hdb] at hafter
  have hdue : s.Completes a row.instanceId → (w.edits row).status ≠ row.status →
      row.Due s.clock := by
    intro hcompletes hchanged
    rcases due_of_completes h.inv hstep (hid ▸ hcompletes) hrow with hsame | hdue
    · rw [hafter, Option.some.injEq] at hsame
      rw [hsame] at hchanged
      exact absurd rfl hchanged
    · exact hdue
  refine ⟨w.edits row, hafter, ?_⟩
  rcases edits_cases hl hrow with ⟨hsame, -⟩ | ⟨writer, nowIso, hedit, -, hpre, -⟩
  · rw [hsame]
    exact ⟨fun hchanged => absurd rfl hchanged, id, fun _ hchanged => absurd rfl hchanged⟩
  · have hallowed : Allowed row.status
        (row.update (writer.params nowIso row.version)).status := allowed_of_pre hpre
    refine ⟨fun _ => ?_, fun hclosed => ?_, fun hcompletes hchanged _ => hdue hcompletes hchanged⟩
    · rw [hedit]
      exact ⟨rfl, hallowed⟩
    · exact absurd hclosed (not_running_of_allowed hallowed).2.2

end Step

/-! ## Runs -/

/-- **The states of an instance**, whatever requests come, in whatever order their statements run: in
every state a countdown has an instant it was started at, whoever is running has two players, and
nobody has been told twice of a start; and every step makes one of the six changes, with the version,
and never one from `closed`. -/
theorem instances_follow_lifecycle (clock : Int) (as : List Action) (s : State)
    (h : exec step (.initial clock) as = some s) :
    StateOk s ∧ EachStep step StepOk (.initial clock) as := by
  have hreach : ∀ pre m, exec step (.initial clock) pre = some m → LifecycleInv m := by
    intro pre m hm
    exact exec_invariant (fun _ _ _ hi hstep => hi.step hstep) hm (lifecycleInv_initial clock)
  refine ⟨(hreach as s h).ok, ?_⟩
  intro pre a m m' _ hm hstep
  exact (hreach pre m hm).stepOk hstep

/-! A countdown that the host and the scheduler complete at the same time. -/

/-- User 1 opens instance 5 and user 2 joins it; the countdown lasts until the clock has advanced. -/
def countsDown : List Action :=
  [.arrive (.createInstance 9 1 (some 4)), .advance 0 5,
   .arrive (.joinInstance 5 2), .advance 1 6, .advance 1 6,
   .arrive (.startCountdown 5 1), .advance 2 0, .advance 2 0, .tick 5000]

/-- The host reads first, the scheduler writes first; afterwards the host closes the instance. -/
def completedTwice : List Action :=
  countsDown ++
  [Action.arrive (.startInstance 5 1), .advance 3 0, .advance 3 0,
   .arrive .handleDueCountdowns, .advance 4 0, .advance 5 0, .advance 5 0, .advance 5 0,
   .advance 3 0, .advance 3 0,
   .arrive (.closeInstance 5 1), .advance 6 0, .advance 6 0]

/-- Status and version of the instance, how often it was announced, and what the host was told. -/
def State.outcome (s : State) : Option (InstanceStatus × Int) × Nat × Option Request :=
  ((s.db.quizInstances.find? 5).map fun row => (row.status, row.version), s.startedEvents 5,
    s.requests[3]?)

theorem instances_follow_lifecycle_completedTwice : ∃ s,
    exec step (.initial 0) completedTwice = some s ∧
      s.outcome = (some (.closed, 4), 1,
        some (.failed (.alreadyStarted instanceAlreadyStartedMessage))) ∧
      StateOk s ∧ EachStep step StepOk (.initial 0) completedTwice := by
  refine exists_of_read (fun s => s.outcome)
    (some (.closed, 4), 1, some (.failed (.alreadyStarted instanceAlreadyStartedMessage)))
    (by decide +kernel) fun s hs hread => ?_
  exact ⟨hread, instances_follow_lifecycle 0 completedTwice s hs⟩

end QuizBackend.Instance
