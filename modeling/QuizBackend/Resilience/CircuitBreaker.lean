import QuizBackend.Lib.Run

/-!
# The in-process circuit breaker

`CircuitBreaker.exec` runs a task through three fields that every overlapping call shares:
`state`, `consecutiveFailures` and `openedAt`. A call is two atomic moments with an arbitrary time
between them — what `exec` does up to the `await`, and `onSuccess` or `onFailure` once the task has
settled — so a schedule is a list of starts and finishes (`Action`). `step` takes them at whatever
time the clock shows, also one set back; `stepInTime` is the same step under a clock that never
goes back.

The branches of `onSuccess` and `onFailure` are written for the call that the current `state` is
about. A call that started under another state reaches them all the same, and both results below
are about exactly that:

* `neverSticksOpen_iff` — a late success that lands while the breaker is open forgets `openedAt`,
  after which the elapsed time reads `0` for ever (in time);
* `singleProbe_iff` — `exec` tests for `'open'` only, so nothing holds back a second call while
  the half-open probe is pending (under any clock).
-/

namespace QuizBackend.Resilience

open Lib

/-! ## The breaker -/

inductive CircuitState
  | closed
  | opened
  | halfOpen
  deriving DecidableEq

/-- The options the constructor has let through: it throws on a threshold or a timeout that is not
positive. -/
structure CircuitBreakerOptions where
  failureThreshold : Int
  resetTimeoutMs : Int
  failureThreshold_pos : 0 < failureThreshold
  resetTimeoutMs_pos : 0 < resetTimeoutMs

/-- The breaker's fields, with the state changes it has reported through `onTransition`. -/
structure CircuitBreaker where
  state : CircuitState := .closed
  consecutiveFailures : Int := 0
  openedAt : Option Int := none
  transitions : List (CircuitState × CircuitState) := []
  deriving DecidableEq

open CircuitBreaker

/-- The constructor: the options it accepts, and a closed breaker. -/
def CircuitBreaker.new (failureThreshold resetTimeoutMs : Int) :
    Except String (CircuitBreakerOptions × CircuitBreaker) :=
  if hf : failureThreshold ≤ 0 then
    .error "CircuitBreaker: failureThreshold must be > 0"
  else if hr : resetTimeoutMs ≤ 0 then
    .error "CircuitBreaker: resetTimeoutMs must be > 0"
  else
    .ok (⟨failureThreshold, resetTimeoutMs, by omega, by omega⟩, {})

/-- What a call short-circuited by an open breaker gets instead of its task's result. -/
structure CircuitOpenError where
  message : String
  state : CircuitState

/-- Moves from `before` to `after` and reports it, unless they are one state. -/
def CircuitBreaker.transition (b : CircuitBreaker) (before after : CircuitState) : CircuitBreaker :=
  if before = after then b
  else { b with state := after, transitions := b.transitions ++ [(before, after)] }

/-- `this.openedAt !== null ? this.now() - this.openedAt : 0`. -/
def CircuitBreaker.elapsed (b : CircuitBreaker) (now : Int) : Int :=
  match b.openedAt with
  | some openedAt => now - openedAt
  | none => 0

/-- `exec` up to the call of `task`: what it throws, or the breaker the task runs under. -/
def CircuitBreaker.exec (o : CircuitBreakerOptions) (b : CircuitBreaker) (now : Int) :
    Except CircuitOpenError CircuitBreaker :=
  if b.state = .opened then
    if b.elapsed now < o.resetTimeoutMs then
      let remaining := o.resetTimeoutMs - b.elapsed now
      .error ⟨s!"Circuit breaker is open (cool-down remaining: {remaining}ms)", b.state⟩
    else
      .ok (b.transition .opened .halfOpen)
  else
    .ok b

/-- A task of `exec` has settled well. -/
def CircuitBreaker.onSuccess (b : CircuitBreaker) : CircuitBreaker :=
  let b := if b.state = .halfOpen then b.transition .halfOpen .closed else b
  { b with consecutiveFailures := 0, openedAt := none }

/-- A task of `exec` has thrown. -/
def CircuitBreaker.onFailure (o : CircuitBreakerOptions) (b : CircuitBreaker) (now : Int) :
    CircuitBreaker :=
  let b := { b with consecutiveFailures := b.consecutiveFailures + 1 }
  if b.state = .halfOpen then
    { b with openedAt := some now }.transition .halfOpen .opened
  else if o.failureThreshold ≤ b.consecutiveFailures then
    -- also taken while the breaker is open already, by a call that started before it opened
    { b with openedAt := some now }.transition .closed .opened
  else
    b

/-! ## Overlapping calls -/

/-- A call whose task is running, with the state it was started in: after the move to
`'half-open'`, if `exec` made one. -/
structure Call where
  id : Nat
  startedIn : CircuitState
  deriving DecidableEq

/-- The atomic moments of a schedule: a call's start, and the two ways its task settles. -/
inductive Action
  | start (now : Int)
  | succeed (id : Nat) (now : Int)
  | fail (id : Nat) (now : Int)

/-- The breaker, the calls whose task is running, and the time of the last moment. -/
structure State where
  breaker : CircuitBreaker
  inFlight : List Call
  nextId : Nat
  clock : Int

open State

def State.initial (clock : Int) : State :=
  { breaker := {}, inFlight := [], nextId := 0, clock }

def Action.now : Action → Int
  | .start now => now
  | .succeed _ now => now
  | .fail _ now => now

/-- The task of call `id` settles, and the breaker becomes `b`. -/
def State.finish (s : State) (id : Nat) (b : CircuitBreaker) (now : Int) : Option State :=
  if s.inFlight.any (·.id = id) then
    some { s with breaker := b, inFlight := s.inFlight.eraseP (·.id = id), clock := now }
  else
    none

/-- A call that throws `CircuitOpenError` changes nothing but the time. -/
def step (o : CircuitBreakerOptions) (s : State) : Action → Option State
  | .start now =>
    match s.breaker.exec o now with
    | .error _ => some { s with clock := now }
    | .ok b =>
      some
        { breaker := b
          inFlight := s.inFlight ++ [⟨s.nextId, b.state⟩]
          nextId := s.nextId + 1
          clock := now }
  | .succeed id now => s.finish id s.breaker.onSuccess now
  | .fail id now => s.finish id (s.breaker.onFailure o now) now

/-- A step under a non-decreasing clock. -/
def stepInTime (o : CircuitBreakerOptions) (s : State) (a : Action) : Option State :=
  if a.now < s.clock then none else step o s a

/-! ## What the fields are after each moment -/

section Fields

variable (o : CircuitBreakerOptions) (b : CircuitBreaker) (now : Int)

@[simp] theorem onSuccess_openedAt : b.onSuccess.openedAt = none := by
  unfold onSuccess
  split <;> rfl

theorem onSuccess_state :
    b.onSuccess.state = if b.state = .halfOpen then .closed else b.state := by
  unfold onSuccess transition
  by_cases hs : b.state = .halfOpen
  · simp [hs]
  · simp [hs]

/-- A failure re-opens a half-open breaker, opens one that has reached its threshold, and otherwise
leaves the state alone; `openedAt` is the moment of the failure just when it opens. -/
theorem onFailure_fields :
    ((b.onFailure o now).state = .opened ∧ (b.onFailure o now).openedAt = some now) ∨
      (b.state ≠ .halfOpen ∧ (b.onFailure o now).state = b.state ∧
        (b.onFailure o now).openedAt = b.openedAt) := by
  unfold onFailure transition
  by_cases hs : b.state = .halfOpen
  · simp [hs]
  · by_cases ht : o.failureThreshold ≤ b.consecutiveFailures + 1
    · simp [hs, ht]
    · simp [hs, ht]

/-- The task runs under the breaker as it is, or under the one it moves into half-open when the
cool-down is over. -/
theorem exec_ok {b'} (h : b.exec o now = .ok b') :
    (b.state ≠ .opened ∧ b' = b) ∨
      (b.state = .opened ∧ o.resetTimeoutMs ≤ b.elapsed now ∧
        b'.state = .halfOpen ∧ b'.openedAt = b.openedAt) := by
  unfold CircuitBreaker.exec at h
  split at h
  next hs =>
    split at h
    · cases h
    next he =>
      cases h
      exact .inr ⟨hs, Int.not_lt.mp he, rfl, rfl⟩
  next hs =>
    cases h
    exact .inl ⟨hs, rfl⟩

end Fields

/-! ## What a step does -/

variable {s s' : State} {a : Action}

/-- **A step, inverted.** -/
theorem step_cases {o : CircuitBreakerOptions} (h : step o s a = some s') :
    s'.clock = a.now ∧
      ((∃ now e, a = .start now ∧ s.breaker.exec o now = .error e ∧
          s'.breaker = s.breaker ∧ s'.inFlight = s.inFlight) ∨
        (∃ now, a = .start now ∧ s.breaker.exec o now = .ok s'.breaker ∧
          s'.inFlight = s.inFlight ++ [⟨s.nextId, s'.breaker.state⟩]) ∨
        (∃ id now, a = .succeed id now ∧ s'.breaker = s.breaker.onSuccess ∧
          s'.inFlight = s.inFlight.eraseP (·.id = id)) ∨
        (∃ id now, a = .fail id now ∧ s'.breaker = s.breaker.onFailure o now ∧
          s'.inFlight = s.inFlight.eraseP (·.id = id))) := by
  cases a with
  | start now =>
    simp only [step] at h
    cases he : s.breaker.exec o now with
    | error e =>
      simp only [he, Option.some.injEq] at h
      subst h
      exact ⟨rfl, .inl ⟨now, e, rfl, he, rfl, rfl⟩⟩
    | ok b =>
      simp only [he, Option.some.injEq] at h
      subst h
      exact ⟨rfl, .inr (.inl ⟨now, rfl, he, rfl⟩)⟩
  | succeed id now =>
    simp only [step, finish] at h
    split at h
    · cases h
      exact ⟨rfl, .inr (.inr (.inl ⟨id, now, rfl, rfl, rfl⟩))⟩
    · cases h
  | fail id now =>
    simp only [step, finish] at h
    split at h
    · cases h
      exact ⟨rfl, .inr (.inr (.inr ⟨id, now, rfl, rfl, rfl⟩))⟩
    · cases h

theorem stepInTime_some {o : CircuitBreakerOptions} (h : stepInTime o s a = some s') :
    s.clock ≤ a.now ∧ step o s a = some s' := by
  unfold stepInTime at h
  split at h
  · cases h
  next ht => exact ⟨Int.not_lt.mp ht, h⟩

/-! ## Recovery from `'open'` -/

/-- `openedAt` is not a time to come. -/
def State.OpenedBefore (s : State) : Prop :=
  ∀ openedAt ∈ s.breaker.openedAt, openedAt ≤ s.clock

/-- An open breaker remembers when it opened. -/
def State.OpenedAtKnown (s : State) : Prop :=
  s.breaker.state = .opened → s.breaker.openedAt ≠ none

/-- With no call in flight, an `exec` that comes a full cool-down after the last step runs its
task. -/
def State.Recovers (o : CircuitBreakerOptions) (s : State) : Prop :=
  s.inFlight = [] → ∀ now, s.clock + o.resetTimeoutMs ≤ now →
    ∃ b, s.breaker.exec o now = .ok b

/-- The step is not the success of a call while the breaker is open. -/
def NoLateSuccess (s : State) : Action → Prop
  | .succeed _ _ => s.breaker.state ≠ .opened
  | _ => True

instance (s : State) : (a : Action) → Decidable (NoLateSuccess s a)
  | .start _ => .isTrue trivial
  | .succeed _ _ => inferInstanceAs (Decidable (_ ≠ _))
  | .fail _ _ => .isTrue trivial

/-- The cool-down is over a full `resetTimeoutMs` after any moment at which the breaker was open
already, so knowing `openedAt` is all that recovery needs. -/
theorem recovers_of_openedAtKnown {o : CircuitBreakerOptions} (hb : s.OpenedBefore)
    (hk : s.OpenedAtKnown) : s.Recovers o := by
  intro _ now hnow
  unfold CircuitBreaker.exec
  by_cases hs : s.breaker.state = .opened
  · cases ho : s.breaker.openedAt with
    | none => exact absurd ho (hk hs)
    | some openedAt =>
      have hle : openedAt ≤ s.clock := hb openedAt ho
      have hover : ¬ s.breaker.elapsed now < o.resetTimeoutMs := by
        simp only [elapsed, ho]
        omega
      rw [if_pos hs, if_neg hover]
      exact ⟨_, rfl⟩
  · rw [if_neg hs]
    exact ⟨_, rfl⟩

theorem openedBefore_step {o : CircuitBreakerOptions} (hb : s.OpenedBefore)
    (h : stepInTime o s a = some s') : s'.OpenedBefore := by
  obtain ⟨hle, hstep⟩ := stepInTime_some h
  obtain ⟨hclock, hcase⟩ := step_cases hstep
  have hkeep : s'.breaker.openedAt = s.breaker.openedAt → s'.OpenedBefore := by
    intro heq openedAt hmem
    rw [heq] at hmem
    have := hb openedAt hmem
    omega
  rcases hcase with ⟨now, e, rfl, -, hbr, -⟩ | ⟨now, rfl, hok, -⟩ | ⟨id, now, rfl, hbr, -⟩ |
    ⟨id, now, rfl, hbr, -⟩
  · exact hkeep (by rw [hbr])
  · rcases exec_ok o s.breaker now hok with ⟨-, heq⟩ | ⟨-, -, -, heq⟩
    · exact hkeep (by rw [heq])
    · exact hkeep heq
  · intro openedAt hmem
    rw [hbr, onSuccess_openedAt] at hmem
    cases hmem
  · rcases onFailure_fields o s.breaker now with ⟨-, heq⟩ | ⟨-, -, heq⟩
    · intro openedAt hmem
      rw [hbr, heq, Option.mem_some] at hmem
      rw [hclock, ← hmem]
      exact Int.le_refl now
    · exact hkeep (by rw [hbr, heq])

/-- From a state that knows when it opened, the next one does too exactly when the step is not the
success of a call while the breaker is open. -/
theorem openedAtKnown_step_iff {o : CircuitBreakerOptions} (hk : s.OpenedAtKnown)
    (h : step o s a = some s') : NoLateSuccess s a ↔ s'.OpenedAtKnown := by
  obtain ⟨-, hcase⟩ := step_cases h
  rcases hcase with ⟨now, e, rfl, -, hbr, -⟩ | ⟨now, rfl, hok, -⟩ | ⟨id, now, rfl, hbr, -⟩ |
    ⟨id, now, rfl, hbr, -⟩
  · refine iff_of_true trivial ?_
    rw [OpenedAtKnown, hbr]
    exact hk
  · refine iff_of_true trivial ?_
    rcases exec_ok o s.breaker now hok with ⟨-, heq⟩ | ⟨-, -, hhalf, -⟩
    · rw [OpenedAtKnown, heq]
      exact hk
    · intro hopen
      rw [hhalf] at hopen
      cases hopen
  · -- a success clears `openedAt`, so the state it leaves must not be `'open'`
    rw [OpenedAtKnown, hbr, onSuccess_openedAt, onSuccess_state]
    change s.breaker.state ≠ .opened ↔ _
    by_cases hs : s.breaker.state = .halfOpen
    · simp [hs]
    · simp [hs]
  · refine iff_of_true trivial ?_
    intro hopen
    rcases onFailure_fields o s.breaker now with ⟨-, heq⟩ | ⟨-, hstate, heq⟩
    · rw [hbr, heq]
      exact Option.some_ne_none now
    · rw [hbr, heq]
      rw [hbr, hstate] at hopen
      exact hk hopen

/-- **The breaker never sticks open, exactly.** In a run of overlapping calls under a clock that
never goes back, every state passed through knows when it opened if it is `'open'`, and lets a call
through a cool-down later if no call is in flight, if and only if no task of the run succeeds while
the breaker is open. -/
theorem neverSticksOpen_iff (o : CircuitBreakerOptions) (clock : Int) (as : List Action)
    (s : State) (h : exec (stepInTime o) (State.initial clock) as = some s) :
    Always (stepInTime o) (fun s => s.OpenedAtKnown ∧ s.Recovers o) (State.initial clock) as ↔
      Along (stepInTime o) NoLateSuccess (State.initial clock) as := by
  have hbefore : (State.initial clock).OpenedBefore := by
    intro openedAt hmem
    cases hmem
  have hknown : (State.initial clock).OpenedAtKnown := by
    intro hopen
    cases hopen
  refine along_iff_always (I := State.OpenedBefore) ?_ ?_ h hbefore
    ⟨hknown, recovers_of_openedAtKnown hbefore hknown⟩
  · intro s a s' hb hstep
    exact openedBefore_step hb hstep
  · intro s a s' hb hk hstep
    rw [openedAtKnown_step_iff hk.1 (stepInTime_some hstep).2]
    refine ⟨fun hk' => ⟨hk', ?_⟩, And.left⟩
    exact recovers_of_openedAtKnown (openedBefore_step hb hstep) hk'

def twoFailures : CircuitBreakerOptions :=
  { failureThreshold := 2, resetTimeoutMs := 30000, failureThreshold_pos := by decide
    resetTimeoutMs_pos := by decide }

/-- Three calls overlap; two of them fail and open the circuit, the third one succeeds after
that. -/
def lateSuccess : List Action :=
  [.start 0, .start 0, .start 0, .fail 0 10, .fail 1 20, .succeed 2 30]

def earlySuccess : List Action :=
  [.start 0, .start 0, .start 0, .succeed 2 5, .fail 0 10, .fail 1 20]

theorem neverSticksOpen_earlySuccess :
    Always (stepInTime twoFailures) (fun s => s.OpenedAtKnown ∧ s.Recovers twoFailures)
      (State.initial 0) earlySuccess := by
  obtain ⟨s, hs, -⟩ : ∃ s, exec (stepInTime twoFailures) (State.initial 0) earlySuccess = some s ∧
      s.breaker.state = .opened := Option.map_eq_some_iff.mp (by decide +kernel)
  exact (neverSticksOpen_iff twoFailures 0 earlySuccess s hs).mpr (by decide +kernel)

/-- After `lateSuccess` no call is in flight, the breaker is open with no opening time, and an
`exec` a whole day later is refused with the full cool-down remaining. -/
theorem sticksOpen_lateSuccess :
    ∃ s, exec (stepInTime twoFailures) (State.initial 0) lateSuccess = some s ∧
      ¬ s.OpenedAtKnown ∧ ¬ s.Recovers twoFailures ∧
      s.breaker.exec twoFailures 86400030 =
        .error ⟨"Circuit breaker is open (cool-down remaining: 30000ms)", .opened⟩ := by
  refine exists_of_read (fun s => (s.breaker, s.inFlight, s.clock))
    ({ state := .opened, transitions := [(.closed, .opened)] }, [], 30) (by decide +kernel)
    fun s hs hb => ?_
  simp only [Prod.mk.injEq] at hb
  obtain ⟨hbreaker, hcalls, hclock⟩ := hb
  have hrefused : s.breaker.exec twoFailures 86400030 =
      .error ⟨"Circuit breaker is open (cool-down remaining: 30000ms)", .opened⟩ := by
    rw [hbreaker]
    rfl
  refine ⟨?_, ?_, hrefused⟩
  · intro hk
    rw [State.OpenedAtKnown, hbreaker] at hk
    exact hk rfl rfl
  · intro hr
    obtain ⟨b, hok⟩ := hr hcalls 86400030 (by rw [hclock]; decide)
    rw [hrefused] at hok
    cases hok

/-! ## One probe at a time -/

/-- The calls in flight that were started in, or moved the breaker into, `'half-open'`. -/
def State.probes (s : State) : List Call :=
  s.inFlight.filter (·.startedIn = .halfOpen)

/-- A half-open breaker has its probe still running. -/
def State.ProbePending (s : State) : Prop :=
  s.breaker.state = .halfOpen → s.probes ≠ []

/-- A call is not started in `'half-open'`, and not after the cool-down while an earlier probe is
still running. -/
def StartsOneProbe (o : CircuitBreakerOptions) (s : State) : Action → Prop
  | .start now =>
    s.breaker.state ≠ .halfOpen ∧
      (s.breaker.state = .opened → o.resetTimeoutMs ≤ s.breaker.elapsed now → s.probes = [])
  | _ => True

instance (o : CircuitBreakerOptions) (s : State) : (a : Action) → Decidable (StartsOneProbe o s a)
  | .start _ => inferInstanceAs (Decidable (_ ∧ (_ → _ → _)))
  | .succeed _ _ => .isTrue trivial
  | .fail _ _ => .isTrue trivial

theorem finish_probes {id : Nat} (hcalls : s'.inFlight = s.inFlight.eraseP (·.id = id)) :
    s'.probes.length ≤ s.probes.length := by
  rw [probes, probes, hcalls]
  exact (List.Sublist.filter _ (List.eraseP_sublist)).length_le

theorem onSuccess_ne_halfOpen (b : CircuitBreaker) : b.onSuccess.state ≠ .halfOpen := by
  rw [onSuccess_state]
  split
  · decide
  · assumption

theorem onFailure_ne_halfOpen (o : CircuitBreakerOptions) (b : CircuitBreaker) (now : Int) :
    (b.onFailure o now).state ≠ .halfOpen := by
  rcases onFailure_fields o b now with ⟨hstate, -⟩ | ⟨hne, hstate, -⟩
  · rw [hstate]
    decide
  · rw [hstate]
    exact hne

theorem start_probes (hcalls : s'.inFlight = s.inFlight ++ [⟨s.nextId, s'.breaker.state⟩]) :
    s'.probes =
      s.probes ++ if s'.breaker.state = .halfOpen then [⟨s.nextId, s'.breaker.state⟩] else [] := by
  rw [probes, probes, hcalls, List.filter_append]
  by_cases hs : s'.breaker.state = .halfOpen
  · simp [hs]
  · simp [hs]

theorem probePending_step {o : CircuitBreakerOptions} (hp : s.ProbePending)
    (h : step o s a = some s') : s'.ProbePending := by
  obtain ⟨-, hcase⟩ := step_cases h
  rcases hcase with ⟨now, e, rfl, -, hbr, hcalls⟩ | ⟨now, rfl, hok, hcalls⟩ |
    ⟨id, now, rfl, hbr, -⟩ | ⟨id, now, rfl, hbr, -⟩
  · rw [ProbePending, probes, hbr, hcalls]
    exact hp
  · intro hhalf
    rw [start_probes hcalls, if_pos hhalf]
    exact List.append_ne_nil_of_right_ne_nil _ (List.cons_ne_nil _ _)
  · intro hhalf
    rw [hbr] at hhalf
    exact absurd hhalf (onSuccess_ne_halfOpen s.breaker)
  · intro hhalf
    rw [hbr] at hhalf
    exact absurd hhalf (onFailure_ne_halfOpen o s.breaker now)

theorem start_length_probes {o : CircuitBreakerOptions} {now : Int} (hp : s.ProbePending)
    (hone : s.probes.length ≤ 1) (hok : s.breaker.exec o now = .ok s'.breaker)
    (hcalls : s'.inFlight = s.inFlight ++ [⟨s.nextId, s'.breaker.state⟩]) :
    StartsOneProbe o s (.start now) ↔ s'.probes.length ≤ 1 := by
  rw [start_probes hcalls]
  change (_ ∧ _) ↔ _
  rcases exec_ok o s.breaker now hok with ⟨hne, heq⟩ | ⟨hopen, hover, hhalf, -⟩
  · rw [heq]
    by_cases hs : s.breaker.state = .halfOpen
    · -- the pending probe and this call
      have hpos := List.length_pos_iff.mpr (hp hs)
      refine iff_of_false (fun hfree => hfree.1 hs) ?_
      rw [if_pos hs, List.length_append, List.length_singleton]
      omega
    · simp [hs, hne, hone]
  · rw [if_pos hhalf, hopen]
    simp only [List.length_append, List.length_cons, List.length_nil, ne_eq, reduceCtorEq,
      not_false_eq_true, true_and, forall_const, hover]
    rw [← List.length_eq_zero_iff]
    omega

theorem startsOneProbe_iff {o : CircuitBreakerOptions} (hp : s.ProbePending)
    (hone : s.probes.length ≤ 1) (h : step o s a = some s') :
    StartsOneProbe o s a ↔ s'.probes.length ≤ 1 := by
  obtain ⟨-, hcase⟩ := step_cases h
  rcases hcase with ⟨now, e, rfl, herr, hbr, hcalls⟩ | ⟨now, rfl, hok, hcalls⟩ |
    ⟨id, now, rfl, -, hcalls⟩ | ⟨id, now, rfl, -, hcalls⟩
  · -- refused: the breaker is open and its cool-down is not over
    refine iff_of_true ?_ ?_
    · unfold CircuitBreaker.exec at herr
      split at herr
      next hs =>
        split at herr
        next hlt =>
          refine ⟨by rw [hs]; decide, ?_⟩
          intro _ hover
          omega
        · cases herr
      · cases herr
    · rw [probes, hcalls]
      exact hone
  · exact start_length_probes hp hone hok hcalls
  · exact iff_of_true trivial ((finish_probes hcalls).trans hone)
  · exact iff_of_true trivial ((finish_probes hcalls).trans hone)

/-- **A single half-open probe, exactly.** In a run of overlapping calls under any clock, at most one
call started in (or moving into) `'half-open'` is in flight in every state passed through, if and
only if no call of the run is made while the breaker is half-open, and none that finds the cool-down
over is made while an earlier probe is still running. -/
theorem singleProbe_iff (o : CircuitBreakerOptions) (clock : Int) (as : List Action)
    (s : State) (h : exec (step o) (State.initial clock) as = some s) :
    Always (step o) (fun s => s.probes.length ≤ 1) (State.initial clock) as ↔
      Along (step o) (StartsOneProbe o) (State.initial clock) as := by
  have hpending : (State.initial clock).ProbePending := by
    intro hhalf
    cases hhalf
  refine along_iff_always (I := State.ProbePending) ?_ ?_ h hpending (Nat.zero_le 1)
  · intro s a s' hp hstep
    exact probePending_step hp hstep
  · intro s a s' hp hone hstep
    exact startsOneProbe_iff hp hone hstep

/-- Two calls fail, and each call after a cool-down is made when the one before has settled. -/
def oneByOne : List Action :=
  [.start 0, .fail 0 10, .start 20, .fail 1 30, .start 30030, .fail 2 30040, .start 60040]

def twoProbes : List Action :=
  [.start 0, .fail 0 10, .start 20, .fail 1 30, .start 30030, .start 30040]

theorem singleProbe_oneByOne :
    Always (step twoFailures) (fun s => s.probes.length ≤ 1) (State.initial 0) oneByOne := by
  obtain ⟨s, hs, -⟩ : ∃ s, exec (step twoFailures) (State.initial 0) oneByOne = some s ∧
      s.probes.length = 1 := Option.map_eq_some_iff.mp (by decide +kernel)
  exact (singleProbe_iff twoFailures 0 oneByOne s hs).mpr (by decide +kernel)

theorem two_probes_in_flight :
    ∃ s, exec (step twoFailures) (State.initial 0) twoProbes = some s ∧
      s.probes = [⟨2, .halfOpen⟩, ⟨3, .halfOpen⟩] :=
  Option.map_eq_some_iff.mp (by decide +kernel)

end QuizBackend.Resilience
