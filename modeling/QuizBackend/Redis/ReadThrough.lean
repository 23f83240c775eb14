import QuizBackend.Resilience.CircuitBreaker

/-!
# The read-through cache (`redis.service.ts`, `redis-circuit-breaker.ts`)

`getOrSet` and `getOrSetWithStampedeProtection` answer from Redis or else from a fetcher, and are
documented to fall back to the fetcher when Redis is out of reach. `RedisCircuitBreaker.exec` guards
a task: it answers with a fallback while the breaker is open, and otherwise lets the task's outcome
count.

`getOrSet` puts the whole of itself into such a task, so its fallback (`undefined`) takes the place of
the fetcher's result, the fetcher's failures count as failures of Redis, and a failure of Redis fails
the call. The other one leaves only `get` and `set` to the breaker, and sends the two commands of its
lock past it: with Redis down they throw.

A call is modelled from beginning to end, alone: the n-th reading of the clock, the replies of Redis
and the outcome of the fetcher are given, and every one of them may be a failure. A thrown error is
kept apart by where it was thrown; `CircuitOpenError` is one class, whoever's breaker throws it. What
a corrupt entry logs is left out.
-/

namespace QuizBackend.Redis

open Lib Resilience CircuitBreaker

/-! ## What a call meets -/

/-- An error of a fetcher; it may have a circuit breaker of its own. -/
inductive FetchError
  | circuitOpen (e : CircuitOpenError)
  | other (message : String)

inductive Thrown
  | fetcher (e : FetchError)
  | redis (message : String)
  | json (message : String)
  | error (message : String)

def Thrown.isCircuitOpen : Thrown → Bool
  | .fetcher (.circuitOpen _) => true
  | _ => false

/-- `JSON.parse` and `JSON.stringify`, on the values of a fetcher; either may throw. -/
structure Json (V : Type) where
  parse : String → Option V
  stringify : V → Except String String

structure Replies where
  get : Nat → Except String (Option String)
  set : Except String Unit
  lock : Except String Bool
  del : Except String Unit

inductive Method
  | getOrSet
  | getOrSetWithStampedeProtection

structure Input (V : Type) where
  options : CircuitBreakerOptions
  breaker : CircuitBreaker
  clock : Nat → Int
  json : Json V
  redis : Replies
  method : Method
  ttlMs : Int
  fetcher : Except FetchError V
  maxRetries : Nat := 10

/-- What changes during a call: the breaker, the clock readings and `GET`s so far, and the outcomes of
the commands that were sent through the breaker. -/
structure Progress where
  breaker : CircuitBreaker
  shortCircuitedCount : Nat
  readings : Nat
  gets : Nat
  commands : List Bool

open Progress

abbrev Call := EStateM Thrown Progress

variable {V : Type}

/-! ## `RedisCircuitBreaker` -/

/-- `exec`: a fallback instead of a `CircuitOpenError`. -/
def exec {α : Type} (i : Input V) (fallback : α) (task : Call α) : Call α := fun p =>
  match p.breaker.exec i.options (i.clock p.readings) with
  | .error _ =>
    .ok fallback { p with readings := p.readings + 1
                          shortCircuitedCount := p.shortCircuitedCount + 1 }
  | .ok breaker =>
    match task { p with breaker, readings := p.readings + 1 } with
    | .ok a p => .ok a { p with breaker := p.breaker.onSuccess }
    | .error e p =>
      let p := { p with breaker := p.breaker.onFailure i.options (i.clock p.readings)
                        readings := p.readings + 1 }
      if e.isCircuitOpen then
        .ok fallback { p with shortCircuitedCount := p.shortCircuitedCount + 1 }
      else .error e p

/-! ## `RedisService` -/

def command {α : Type} (reply : Except String α) : Call α := fun p =>
  match reply with
  | .ok a => .ok a { p with commands := p.commands ++ [true] }
  | .error message => .error (.redis message) { p with commands := p.commands ++ [false] }

def directCommand {α : Type} (reply : Except String α) : Call α := fun p =>
  match reply with
  | .ok a => .ok a p
  | .error message => .error (.redis message) p

def getCommand (i : Input V) : Call (Option String) := fun p =>
  command (i.redis.get p.gets) { p with gets := p.gets + 1 }

def get (i : Input V) : Call (Option String) := exec i none (getCommand i)

def set (i : Input V) (value : V) : Call Unit := do
  match i.json.stringify value with
  | .error message => throw (.json message)
  | .ok _ =>
    if i.ttlMs ≤ 0 then throw (.error "ttlMs must be a positive number")
    else exec i () (command i.redis.set)

def fetch (i : Input V) : Call V := fun p =>
  match i.fetcher with
  | .ok value => .ok value p
  | .error e => .error (.fetcher e) p

/-- The value of an entry; a corrupt one is as good as none. -/
def readable (i : Input V) (cached : Option String) : Option V := cached.bind i.json.parse

def getOrSetTask (i : Input V) : Call (Option V) := do
  let cached ← get i
  match readable i cached with
  | some value => return some value
  | none =>
    let value ← fetch i
    set i value
    return some value

/-- `getOrSet`: all of it runs within the breaker, and the fallback is `undefined`. -/
def getOrSet (i : Input V) : Call (Option V) := exec i none (getOrSetTask i)

def awaitOther (i : Input V) : Nat → Call (Option V)
  | 0 => return none
  | retries + 1 => do
    let cached ← get i
    match readable i cached with
    | some value => return some value
    | none => awaitOther i retries

/-- `try { … } finally { await this.client.del(lockKey) }`. -/
def finallyDel (i : Input V) (body : Call V) : Call V := fun p =>
  match body p with
  | .ok value p => (directCommand i.redis.del >>= fun _ => pure value) p
  | .error e p => (directCommand i.redis.del >>= fun _ => throw e) p

def fetchAndSet (i : Input V) : Call V := do
  let value ← fetch i
  set i value
  return value

def getOrSetWithStampedeProtection (i : Input V) : Call (Option V) := do
  let cached ← get i
  match readable i cached with
  | some value => return some value
  | none =>
    let lockAcquired ← directCommand i.redis.lock
    if lockAcquired then
      let value ← finallyDel i (fetchAndSet i)
      return some value
    else
      match ← awaitOther i i.maxRetries with
      | some value => return some value
      | none =>
        let value ← fetchAndSet i
        return some value

def Progress.start (breaker : CircuitBreaker) : Progress := ⟨breaker, 0, 0, 0, []⟩

def run (i : Input V) : EStateM.Result Thrown Progress (Option V) :=
  match i.method with
  | .getOrSet => getOrSet i (.start i.breaker)
  | .getOrSetWithStampedeProtection => getOrSetWithStampedeProtection i (.start i.breaker)

/-! ## The claim of the table in `redis.service.ts` -/

def Input.uncached (i : Input V) : Except Thrown (Option V) :=
  match i.fetcher with
  | .ok value => .ok (some value)
  | .error e => .error (.fetcher e)

/-- What a call has done; `none` is `undefined` in the place of a result. -/
def outcome (r : EStateM.Result Thrown Progress (Option V)) : Except Thrown (Option V) :=
  match r with
  | .ok value _ => .ok value
  | .error e _ => .error e

def after {α : Type} (r : EStateM.Result Thrown Progress α) : Progress :=
  match r with
  | .ok _ p => p
  | .error _ p => p

/-- The call answers with what is stored under the key, or does what the fetcher does. -/
def Transparent (i : Input V) : Prop :=
  (∃ n cached value, i.redis.get n = .ok cached ∧ readable i cached = some value ∧
    outcome (run i) = .ok (some value)) ∨ outcome (run i) = i.uncached

def countFailures (n : Int) (commands : List Bool) : Int :=
  commands.foldl (fun n ok => if ok then 0 else n + 1) n

def CountsCommands (i : Input V) : Prop :=
  (after (run i)).breaker.consecutiveFailures
    = countFailures i.breaker.consecutiveFailures (after (run i)).commands

def Replies.Down (r : Replies) : Prop :=
  (∀ n, ∃ m, r.get n = .error m) ∧ (∃ m, r.set = .error m) ∧ (∃ m, r.lock = .error m) ∧
    ∃ m, r.del = .error m

/-- The cache is transparent: with stampede protection, at least when Redis is down. -/
def ReadsThrough (i : Input V) : Prop :=
  (match i.method with
    | .getOrSet => Transparent i
    | .getOrSetWithStampedeProtection => i.redis.Down → Transparent i) ∧ CountsCommands i

/-- The fetched value is written to the cache. -/
def StoresFetched (i : Input V) : Prop :=
  ∃ value text, i.fetcher = .ok value ∧ i.json.stringify value = .ok text ∧ 0 < i.ttlMs ∧
    i.redis.set = .ok ()

/-- The breaker lets the call through, `GET` succeeds, and what it finds can be read or the fetcher's
result can be stored; with stampede protection, Redis is not down. -/
def Upheld (i : Input V) : Prop :=
  match i.method with
  | .getOrSet =>
    (∃ b, i.breaker.exec i.options (i.clock 0) = .ok b) ∧
      ∃ cached, i.redis.get 0 = .ok cached ∧ ((∃ value, readable i cached = some value) ∨
        readable i cached = none ∧ StoresFetched i)
  | .getOrSetWithStampedeProtection => ¬ i.redis.Down

/-! ## Commands under the breaker -/

theorem exec_counter {o : CircuitBreakerOptions} {b b' : CircuitBreaker} {now : Int}
    (h : b.exec o now = .ok b') :
    b'.consecutiveFailures = b.consecutiveFailures ∧ b'.state ≠ .opened := by
  unfold CircuitBreaker.exec at h
  split at h
  · split at h
    · cases h
    · cases h
      exact ⟨rfl, by simp [transition]⟩
  · rename_i hs
    cases h
    exact ⟨rfl, hs⟩

theorem exec_of_ne_opened {o : CircuitBreakerOptions} {b : CircuitBreaker} {now : Int}
    (h : b.state ≠ .opened) : b.exec o now = .ok b := by
  unfold CircuitBreaker.exec
  rw [if_neg h]

theorem onSuccess_counter (b : CircuitBreaker) : b.onSuccess.consecutiveFailures = 0 := by
  unfold onSuccess
  split <;> rfl

theorem onFailure_counter (o : CircuitBreakerOptions) (b : CircuitBreaker) (now : Int) :
    (b.onFailure o now).consecutiveFailures = b.consecutiveFailures + 1 := by
  unfold onFailure transition
  by_cases hs : b.state = .halfOpen
  · simp [hs]
  · by_cases ht : o.failureThreshold ≤ b.consecutiveFailures + 1
    · simp [hs, ht]
    · simp [hs, ht]

theorem onSuccess_ne_opened {b : CircuitBreaker} (h : b.state ≠ .opened) :
    b.onSuccess.state ≠ .opened := by
  rw [onSuccess_state]
  split
  · exact nofun
  · exact h

/-- The counter has followed the commands since it stood at `n`. -/
def Follows (n : Int) (p : Progress) : Prop :=
  p.breaker.consecutiveFailures = countFailures n p.commands

theorem countFailures_snoc (n : Int) (commands : List Bool) (ok : Bool) :
    countFailures n (commands ++ [ok]) = if ok then 0 else countFailures n commands + 1 := by
  simp [countFailures]

def SendsOne {α : Type} (task : Call α) : Prop :=
  ∀ p, match task p with
    | .ok _ p' => p'.breaker = p.breaker ∧ p'.commands = p.commands ++ [true]
    | .error e p' => p'.breaker = p.breaker ∧ p'.commands = p.commands ++ [false] ∧
        e.isCircuitOpen = false

theorem sendsOne_command {α : Type} (reply : Except String α) : SendsOne (command reply) := by
  intro p
  cases reply with
  | ok a => exact ⟨rfl, rfl⟩
  | error m => exact ⟨rfl, rfl, rfl⟩

theorem sendsOne_getCommand (i : Input V) : SendsOne (getCommand i) := fun p =>
  sendsOne_command (i.redis.get p.gets) { p with gets := p.gets + 1 }

def Keeps {α : Type} (m : Call α) : Prop :=
  ∀ n p, Follows n p → Follows n (after (m p))

/-- **A single command under the breaker counts as it ends**, and not at all when it is not sent. -/
theorem keeps_exec {α : Type} {i : Input V} {fallback : α} {task : Call α} (h : SendsOne task) :
    Keeps (exec i fallback task) := by
  intro n p hp
  unfold exec
  split
  · exact hp
  · rename_i b hb
    obtain ⟨hcount, -⟩ := exec_counter hb
    have hone := h { p with breaker := b, readings := p.readings + 1 }
    split
    · rename_i a p' htask
      rw [htask] at hone
      show (onSuccess _).consecutiveFailures = countFailures n p'.commands
      rw [onSuccess_counter, hone.2, countFailures_snoc, if_pos rfl]
    · rename_i e p' htask
      rw [htask] at hone
      obtain ⟨hbreaker, hcommands, hopen⟩ := hone
      rw [hopen, if_neg (by decide)]
      show (onFailure _ _ _).consecutiveFailures = countFailures n p'.commands
      rw [onFailure_counter, hcommands, countFailures_snoc, if_neg (by decide), hbreaker, hcount, hp]

theorem Keeps.bind {α β : Type} {m : Call α} {f : α → Call β} (hm : Keeps m)
    (hf : ∀ a, Keeps (f a)) : Keeps (m >>= f) := by
  intro n p hp
  have hafter := hm n p hp
  show Follows n (after (EStateM.bind m f p))
  unfold EStateM.bind
  split
  · rename_i a p' hmp
    rw [hmp] at hafter
    exact hf a n p' hafter
  · rename_i e p' hmp
    rw [hmp] at hafter
    exact hafter

theorem keeps_pure {α : Type} (a : α) : Keeps (pure a : Call α) := fun _ _ h => h

theorem keeps_throw {α : Type} (e : Thrown) : Keeps (throw e : Call α) := fun _ _ h => h

theorem keeps_directCommand {α : Type} (reply : Except String α) : Keeps (directCommand reply) := by
  intro n p hp
  cases reply with
  | ok a => exact hp
  | error m => exact hp

section

variable (i : Input V)

theorem keeps_fetch : Keeps (fetch i) := by
  intro n p hp
  unfold fetch
  split <;> exact hp

theorem keeps_get : Keeps (get i) := keeps_exec (sendsOne_getCommand i)

theorem keeps_set (value : V) : Keeps (set i value) := by
  unfold set
  split
  · exact keeps_throw _
  · split
    · exact keeps_throw _
    · exact keeps_exec (sendsOne_command _)

theorem keeps_fetchAndSet : Keeps (fetchAndSet i) :=
  (keeps_fetch i).bind fun value => (keeps_set i value).bind fun _ => keeps_pure value

theorem keeps_finallyDel : Keeps (finallyDel i (fetchAndSet i)) := by
  intro n p hp
  have hbody := keeps_fetchAndSet i n p hp
  unfold finallyDel
  split
  · rename_i value p' hb
    rw [hb] at hbody
    exact ((keeps_directCommand i.redis.del).bind fun _ => keeps_pure value) n p' hbody
  · rename_i e p' hb
    rw [hb] at hbody
    exact ((keeps_directCommand i.redis.del).bind fun _ => keeps_throw e) n p' hbody

theorem keeps_awaitOther (retries : Nat) : Keeps (awaitOther i retries) := by
  induction retries with
  | zero => exact keeps_pure none
  | succ retries ih =>
    refine (keeps_get i).bind fun cached => ?_
    cases readable i cached with
    | some value => exact keeps_pure _
    | none => exact ih

/-- **With stampede protection no fetcher counts**: it runs outside the breaker. -/
theorem keeps_getOrSetWithStampedeProtection :
    Keeps (getOrSetWithStampedeProtection i) := by
  refine (keeps_get i).bind fun cached => ?_
  cases readable i cached with
  | some value => exact keeps_pure _
  | none =>
    refine (keeps_directCommand i.redis.lock).bind fun lockAcquired => ?_
    cases lockAcquired with
    | true => exact (keeps_finallyDel i).bind fun value => keeps_pure _
    | false =>
      refine (keeps_awaitOther i i.maxRetries).bind fun retried => ?_
      cases retried with
      | some value => exact keeps_pure _
      | none => exact (keeps_fetchAndSet i).bind fun value => keeps_pure _

end

/-! ## `getOrSet` -/

theorem exec_eq {α : Type} {i : Input V} {fallback : α} {task : Call α} {p : Progress}
    (h : p.breaker.state ≠ .opened) :
    exec i fallback task p =
      match task { p with readings := p.readings + 1 } with
      | .ok a p => .ok a { p with breaker := p.breaker.onSuccess }
      | .error e p =>
        let p := { p with breaker := p.breaker.onFailure i.options (i.clock p.readings)
                          readings := p.readings + 1 }
        if e.isCircuitOpen then
          .ok fallback { p with shortCircuitedCount := p.shortCircuitedCount + 1 }
        else .error e p := by
  unfold exec
  rw [exec_of_ne_opened h]

def Progress.got (p : Progress) : Progress :=
  { p with readings := p.readings + 1, gets := p.gets + 1, commands := p.commands ++ [true]
           breaker := p.breaker.onSuccess }

theorem get_ok {i : Input V} {p : Progress} {cached : Option String}
    (h : p.breaker.state ≠ .opened) (hget : i.redis.get p.gets = .ok cached) :
    get i p = .ok cached p.got := by
  rw [get, exec_eq h]
  simp only [getCommand, command, hget]
  rfl

theorem get_error {i : Input V} {p : Progress} {m : String}
    (h : p.breaker.state ≠ .opened) (hget : i.redis.get p.gets = .error m) :
    ∃ p', get i p = .error (.redis m) p' := by
  rw [get, exec_eq h]
  simp only [getCommand, command, hget]
  exact ⟨_, rfl⟩

theorem bind_ok {α β : Type} {m : Call α} {f : α → Call β} {p p' : Progress} {a : α}
    (h : m p = .ok a p') : (m >>= f) p = f a p' := by
  show EStateM.bind m f p = f a p'
  unfold EStateM.bind
  rw [h]

theorem bind_error {α β : Type} {m : Call α} {f : α → Call β} {p p' : Progress} {e : Thrown}
    (h : m p = .error e p') : (m >>= f) p = .error e p' := by
  show EStateM.bind m f p = .error e p'
  unfold EStateM.bind
  rw [h]

theorem fetch_ok {i : Input V} {p : Progress} {value : V} (h : i.fetcher = .ok value) :
    fetch i p = .ok value p := by
  simp only [fetch, h]

theorem fetch_error {i : Input V} {p : Progress} {e : FetchError} (h : i.fetcher = .error e) :
    fetch i p = .error (.fetcher e) p := by
  simp only [fetch, h]

theorem set_ok {i : Input V} {p : Progress} {value : V} (h : p.breaker.state ≠ .opened)
    (hfetch : i.fetcher = .ok value) (hstore : StoresFetched i) :
    ∃ p', set i value p = .ok () p' ∧ p'.commands = p.commands ++ [true] := by
  obtain ⟨_, text, hvalue, hjson, hpos, hset⟩ := hstore
  cases hfetch.symm.trans hvalue
  simp only [set, hjson, if_neg (Int.not_le.mpr hpos), exec_eq h, command, hset]
  exact ⟨_, rfl, rfl⟩

theorem set_error {i : Input V} {p : Progress} {value : V} (h : p.breaker.state ≠ .opened)
    (hfetch : i.fetcher = .ok value) (hstore : ¬ StoresFetched i) :
    ∃ e p', set i value p = .error e p' ∧ e.isCircuitOpen = false := by
  cases hjson : i.json.stringify value with
  | error m =>
    simp only [set, hjson]
    exact ⟨_, _, rfl, rfl⟩
  | ok text =>
    by_cases hpos : i.ttlMs ≤ 0
    · simp only [set, hjson, if_pos hpos]
      exact ⟨_, _, rfl, rfl⟩
    · cases hset : i.redis.set with
      | ok u => exact absurd ⟨value, text, hfetch, hjson, Int.not_le.mp hpos, hset⟩ hstore
      | error m =>
        simp only [set, hjson, if_neg hpos, exec_eq h, command, hset]
        exact ⟨_, _, rfl, rfl⟩

section Task

variable {i : Input V} {p : Progress} {cached : Option String}

theorem getOrSetTask_get_error {m : String} (h : p.breaker.state ≠ .opened)
    (hget : i.redis.get p.gets = .error m) : ∃ p', getOrSetTask i p = .error (.redis m) p' := by
  obtain ⟨p', hp'⟩ := get_error h hget
  exact ⟨p', bind_error hp'⟩

theorem getOrSetTask_hit {value : V} (h : p.breaker.state ≠ .opened)
    (hget : i.redis.get p.gets = .ok cached) (hread : readable i cached = some value) :
    getOrSetTask i p = .ok (some value) p.got := by
  rw [getOrSetTask, bind_ok (get_ok h hget), hread]
  rfl

theorem getOrSetTask_miss (h : p.breaker.state ≠ .opened)
    (hget : i.redis.get p.gets = .ok cached) (hread : readable i cached = none) :
    getOrSetTask i p = (do let value ← fetch i; set i value; return some value) p.got := by
  rw [getOrSetTask, bind_ok (get_ok h hget), hread]

theorem getOrSetTask_fetch_error {e : FetchError} (h : p.breaker.state ≠ .opened)
    (hget : i.redis.get p.gets = .ok cached) (hread : readable i cached = none)
    (hfetch : i.fetcher = .error e) : getOrSetTask i p = .error (.fetcher e) p.got := by
  rw [getOrSetTask_miss h hget hread, bind_error (fetch_error hfetch)]

theorem getOrSetTask_stored {value : V} (h : p.breaker.state ≠ .opened)
    (hget : i.redis.get p.gets = .ok cached) (hread : readable i cached = none)
    (hfetch : i.fetcher = .ok value) (hstore : StoresFetched i) :
    ∃ p', getOrSetTask i p = .ok (some value) p' ∧ p'.commands = p.commands ++ [true, true] := by
  obtain ⟨p', hset, hcommands⟩ := set_ok (p := p.got) (onSuccess_ne_opened h) hfetch hstore
  refine ⟨p', ?_, ?_⟩
  · rw [getOrSetTask_miss h hget hread, bind_ok (fetch_ok hfetch), bind_ok hset]
    rfl
  · rw [hcommands, got, List.append_assoc]
    rfl

theorem getOrSetTask_not_stored {value : V} (h : p.breaker.state ≠ .opened)
    (hget : i.redis.get p.gets = .ok cached) (hread : readable i cached = none)
    (hfetch : i.fetcher = .ok value) (hstore : ¬ StoresFetched i) :
    ∃ e p', getOrSetTask i p = .error e p' ∧ e.isCircuitOpen = false := by
  obtain ⟨e, p', hset, hopen⟩ := set_error (p := p.got) (onSuccess_ne_opened h) hfetch hstore
  refine ⟨e, p', ?_, hopen⟩
  rw [getOrSetTask_miss h hget hread, bind_ok (fetch_ok hfetch), bind_error hset]

end Task

theorem exec_short {α : Type} {i : Input V} {fallback : α} {task : Call α} {p : Progress}
    {e : CircuitOpenError} (h : p.breaker.exec i.options (i.clock p.readings) = .error e) :
    ∃ p', exec i fallback task p = .ok fallback p' := by
  unfold exec
  rw [h]
  exact ⟨_, rfl⟩

theorem exec_enter {α : Type} {i : Input V} {fallback : α} {task : Call α} {p : Progress}
    {b : CircuitBreaker} (h : p.breaker.exec i.options (i.clock p.readings) = .ok b) :
    exec i fallback task p = exec i fallback task { p with breaker := b } := by
  unfold exec
  simp only [h, exec_of_ne_opened (exec_counter h).2]

def Progress.entered (breaker : CircuitBreaker) : Progress := ⟨breaker, 0, 1, 0, []⟩

theorem Progress.entered_eq (b : CircuitBreaker) :
    { start b with readings := (start b).readings + 1 } = entered b := rfl

section GetOrSet

variable {i : Input V} {b : CircuitBreaker} {cached : Option String}

theorem not_transparent_of {r : Except Thrown (Option V)} (houtcome : outcome (run i) = r)
    (hne : r ≠ i.uncached) (hsome : ∀ value, r ≠ .ok (some value)) : ¬ Transparent i := by
  rintro (⟨_, _, value, _, _, hvalue⟩ | huncached)
  · exact hsome value (houtcome.symm.trans hvalue)
  · exact hne (houtcome.symm.trans huncached)

/-- **While the breaker is open, `getOrSet` answers `undefined`**, and does not run the fetcher. -/
theorem getOrSet_open {e : CircuitOpenError} (hm : i.method = .getOrSet)
    (h : i.breaker.exec i.options (i.clock 0) = .error e) : outcome (run i) = .ok none := by
  obtain ⟨p', hp'⟩ : ∃ p', getOrSet i (.start i.breaker) = .ok none p' := exec_short h
  simp only [run, hm, hp', outcome]

theorem run_getOrSet (hm : i.method = .getOrSet)
    (h : i.breaker.exec i.options (i.clock 0) = .ok b) :
    run i = exec i none (getOrSetTask i) (.start b) := by
  simp only [run, hm]
  exact exec_enter h

theorem run_getOrSet_of_ok {value : Option V} {p : Progress} (hm : i.method = .getOrSet)
    (h : i.breaker.exec i.options (i.clock 0) = .ok b)
    (htask : getOrSetTask i (.entered b) = .ok value p) :
    run i = .ok value { p with breaker := p.breaker.onSuccess } := by
  rw [run_getOrSet hm h, exec_eq (exec_counter h).2, entered_eq, htask]

theorem run_getOrSet_of_error {e : Thrown} {p : Progress} (hm : i.method = .getOrSet)
    (h : i.breaker.exec i.options (i.clock 0) = .ok b)
    (htask : getOrSetTask i (.entered b) = .error e p) :
    outcome (run i) = (if e.isCircuitOpen then .ok none else .error e) ∧
      (after (run i)).breaker.consecutiveFailures = p.breaker.consecutiveFailures + 1 ∧
      (after (run i)).commands = p.commands := by
  rw [run_getOrSet hm h, exec_eq (exec_counter h).2, entered_eq, htask]
  cases hopen : e.isCircuitOpen with
  | true =>
    simp only [hopen, if_true]
    exact ⟨rfl, onFailure_counter _ _ _, rfl⟩
  | false =>
    simp only [hopen, Bool.false_eq_true, if_false]
    exact ⟨rfl, onFailure_counter _ _ _, rfl⟩

/-- **A call that is let through, finds `GET` working, and hits or stores, reads through.** -/
theorem readsThrough_of_upheld (hm : i.method = .getOrSet)
    (h : i.breaker.exec i.options (i.clock 0) = .ok b) (hget : i.redis.get 0 = .ok cached)
    (hread : (∃ value, readable i cached = some value) ∨
      readable i cached = none ∧ StoresFetched i) : Transparent i ∧ CountsCommands i := by
  have hopen := (exec_counter h).2
  rcases hread with ⟨value, hread⟩ | ⟨hread, hstore⟩
  · have hrun := run_getOrSet_of_ok hm h
      (getOrSetTask_hit (p := .entered b) hopen hget hread)
    refine ⟨.inl ⟨0, cached, value, hget, hread, by rw [hrun]; rfl⟩, ?_⟩
    rw [CountsCommands, hrun]
    exact onSuccess_counter _
  · obtain ⟨value, text, hfetch, -⟩ := hstore.imp fun _ h => h
    obtain ⟨p', htask, hcommands⟩ := getOrSetTask_stored
      (p := .entered b) hopen hget hread hfetch hstore
    have hrun := run_getOrSet_of_ok hm h htask
    refine ⟨.inr (by rw [hrun, Input.uncached, hfetch]; rfl), ?_⟩
    rw [CountsCommands, hrun]
    show (onSuccess _).consecutiveFailures = countFailures _ p'.commands
    rw [hcommands, onSuccess_counter]
    rfl

/-- The other calls do not: they throw an error that is not the fetcher's, answer `undefined`, or
count the failure of the fetcher. -/
theorem upheld_of_readsThrough (hm : i.method = .getOrSet) (ht : Transparent i)
    (hc : CountsCommands i) : Upheld i := by
  unfold Upheld
  rw [hm]
  cases h : i.breaker.exec i.options (i.clock 0) with
  | error e =>
    refine absurd ht (not_transparent_of (getOrSet_open hm h) ?_ nofun)
    unfold Input.uncached
    split <;> nofun
  | ok b =>
    refine ⟨⟨b, rfl⟩, ?_⟩
    have hopen := (exec_counter h).2
    -- an error other than a `CircuitOpenError` is rethrown
    have hthrows : ∀ {e p}, getOrSetTask i (.entered b) = .error e p →
        e.isCircuitOpen = false → i.uncached = .error e := by
      intro e p htask he
      have hout := (run_getOrSet_of_error hm h htask).1
      rw [he, if_neg (by decide)] at hout
      rcases ht with ⟨_, _, _, _, _, hvalue⟩ | huncached
      · cases hout.symm.trans hvalue
      · exact huncached.symm.trans hout
    have hredis : ∀ m, i.uncached ≠ .error (.redis m) := by
      intro m
      unfold Input.uncached
      split <;> nofun
    cases hget : i.redis.get 0 with
    | error m =>
      obtain ⟨p', htask⟩ := getOrSetTask_get_error
        (p := .entered b) hopen hget
      exact absurd (hthrows htask rfl) (hredis m)
    | ok cached =>
      refine ⟨cached, rfl, ?_⟩
      cases hread : readable i cached with
      | some value => exact .inl ⟨value, rfl⟩
      | none =>
        refine .inr ⟨rfl, ?_⟩
        cases hfetch : i.fetcher with
        | error e =>
          have htask := getOrSetTask_fetch_error
            (p := .entered b) hopen hget hread hfetch
          obtain ⟨-, hcounter, hcommands⟩ := run_getOrSet_of_error hm h htask
          rw [CountsCommands, hcounter, hcommands] at hc
          cases (congrArg (· + 1) (onSuccess_counter b)).symm.trans hc
        | ok value =>
          refine Classical.byContradiction fun hstore => ?_
          obtain ⟨e, p', htask, he⟩ := getOrSetTask_not_stored
            (p := .entered b) hopen hget hread hfetch hstore
          have := hthrows htask he
          rw [Input.uncached, hfetch] at this
          cases this

end GetOrSet

/-! ## `getOrSetWithStampedeProtection` while Redis is down -/

section Down

variable {i : Input V}

theorem get_down {p : Progress} (hdown : i.redis.Down) :
    (∃ p', get i p = .ok none p') ∨ ∃ m p', get i p = .error (.redis m) p' := by
  cases h : p.breaker.exec i.options (i.clock p.readings) with
  | error e => exact .inl (exec_short h)
  | ok b =>
    obtain ⟨m, hget⟩ := hdown.1 p.gets
    obtain ⟨p', hp'⟩ := get_error (p := { p with breaker := b }) (exec_counter h).2 hget
    exact .inr ⟨m, p', (exec_enter h).trans hp'⟩

/-- **With Redis down, the call throws an error of Redis**: from `GET`, or past the open breaker from
the command of the lock. -/
theorem stampede_down (hm : i.method = .getOrSetWithStampedeProtection) (hdown : i.redis.Down) :
    ∃ m, outcome (run i) = .error (.redis m) := by
  simp only [run, hm]
  rcases get_down (p := .start i.breaker) hdown with ⟨p', hp'⟩ | ⟨m, p', hp'⟩
  · obtain ⟨m, hlock⟩ := hdown.2.2.1
    refine ⟨m, ?_⟩
    rw [getOrSetWithStampedeProtection, bind_ok hp']
    have hdirect : directCommand i.redis.lock p' = .error (.redis m) p' := by
      simp only [directCommand, hlock]
    show outcome ((directCommand i.redis.lock >>= _) p') = _
    rw [bind_error hdirect]
    rfl
  · refine ⟨m, ?_⟩
    rw [getOrSetWithStampedeProtection, bind_error hp']
    rfl

end Down

/-! ## When the cache is transparent -/

/-- **A call reads through exactly when the branches that go wrong are not taken.** -/
theorem readsThrough_iff (i : Input V) : ReadsThrough i ↔ Upheld i := by
  unfold ReadsThrough
  cases hm : i.method with
  | getOrSet =>
    constructor
    · rintro ⟨ht, hc⟩
      exact upheld_of_readsThrough hm ht hc
    · intro hup
      unfold Upheld at hup
      rw [hm] at hup
      obtain ⟨⟨b, hb⟩, cached, hget, hread⟩ := hup
      exact readsThrough_of_upheld hm hb hget hread
  | getOrSetWithStampedeProtection =>
    have hcounts : CountsCommands i := by
      unfold CountsCommands run
      rw [hm]
      exact keeps_getOrSetWithStampedeProtection i _ (.start i.breaker) rfl
    unfold Upheld
    rw [hm]
    constructor
    · rintro ⟨ht, -⟩ hdown
      obtain ⟨m, hout⟩ := stampede_down hm hdown
      refine not_transparent_of hout ?_ nofun (ht hdown)
      unfold Input.uncached
      split <;> nofun
    · intro hup
      exact ⟨fun hdown => absurd hdown hup, hcounts⟩

/-! Three calls that do not: the breaker is open, the fetcher fails on a cold cache, and Redis is down
under stampede protection. -/

/-- A cold cache, a `SET` that goes through and a fetcher that finds 7. -/
def coldCall : Input Nat where
  options := twoFailures
  breaker := {}
  clock _ := 1000
  json := ⟨String.toNat?, fun n => .ok (toString n)⟩
  redis := ⟨fun _ => .ok none, .ok (), .ok true, .ok ()⟩
  method := .getOrSet
  ttlMs := 60000
  fetcher := .ok 7

def openCall : Input Nat :=
  { coldCall with breaker := { state := .opened, consecutiveFailures := 2, openedAt := some 900 } }

def failingCall : Input Nat := { coldCall with fetcher := .error (.other "connection terminated") }

def downCall : Input Nat :=
  { coldCall with
    method := .getOrSetWithStampedeProtection
    redis := ⟨fun _ => .error "ECONNREFUSED", .error "ECONNREFUSED", .error "ECONNREFUSED",
      .error "ECONNREFUSED"⟩ }

/-- **The open breaker answers `undefined` for the fetcher's 7, the fetcher's failure counts as one of
Redis, and the outage of Redis reaches the caller.** -/
theorem cache_shows_through :
    (outcome (run openCall) = .ok none ∧ ¬ ReadsThrough openCall) ∧
      ((after (run failingCall)).breaker.consecutiveFailures = 1 ∧
        (after (run failingCall)).commands = [true] ∧ ¬ ReadsThrough failingCall) ∧
      (outcome (run downCall) = .error (.redis "ECONNREFUSED") ∧ ¬ ReadsThrough downCall) := by
  have hopen : outcome (run openCall) = .ok none := getOrSet_open rfl rfl
  have hdown : outcome (run downCall) = .error (.redis "ECONNREFUSED") := rfl
  refine ⟨⟨hopen, ?_⟩, ⟨rfl, rfl, ?_⟩, hdown, ?_⟩
  · rintro ⟨ht, -⟩
    exact not_transparent_of hopen nofun nofun ht
  · rintro ⟨-, hc⟩
    have hcount : (1 : Int) = countFailures 0 [true] := hc
    exact absurd hcount (by decide)
  · rintro ⟨ht, -⟩
    exact not_transparent_of hdown nofun nofun (ht ⟨fun n => ⟨_, rfl⟩, ⟨_, rfl⟩, ⟨_, rfl⟩, _, rfl⟩)

end QuizBackend.Redis
