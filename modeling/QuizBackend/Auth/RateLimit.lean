import QuizBackend.Resilience.CircuitBreaker
import QuizBackend.Lib.Table

/-!
# The rate limits of login and refresh (`SecurityService.enforceRateLimit`)

A login and a refresh are counted per address and per user, in windows of a minute: the first call
of a bucket opens a window, and the first one after its end opens the next. The counters are keys
in Redis with a time to live (`incrementWindowCounter`).

What happens while Redis is down is written out: an open circuit lets a call through at an `_ip`
bucket and turns it away at a `_user` bucket. It is written for an error that never arrives.
`RedisCircuitBreaker.exec` catches the `CircuitOpenError` and answers with a fallback, here `0`
calls, and `0` is within every limit. So a call that is short-circuited is let through at the
bucket that was to fail closed (`enforce_of_shortCircuited`); in everything else the limits hold
exactly.
-/

namespace QuizBackend.Auth

open Lib Resilience Auth

/-! ## The counters -/

inductive RateLimitBucket where
  | loginIp | loginUser | refreshIp | refreshUser

def RateLimitBucket.text : RateLimitBucket → String
  | .loginIp => "login_ip"
  | .loginUser => "login_user"
  | .refreshIp => "refresh_ip"
  | .refreshUser => "refresh_user"

/-- `FAIL_CLOSED_BUCKETS`; the other two are `FAIL_OPEN_BUCKETS`. -/
def RateLimitBucket.failsClosed : RateLimitBucket → Bool
  | .loginUser | .refreshUser => true
  | .loginIp | .refreshIp => false

def RateLimitBucket.limit : RateLimitBucket → Nat
  | .loginIp => 10
  | .loginUser => 8
  | .refreshIp => 30
  | .refreshUser => 20

/-- The `windowMs` of `getRateLimitConfig`, of every bucket. -/
def windowMs : Int := 60000

def rateKey (bucket : RateLimitBucket) (key : String) : String :=
  "auth:rate_limit:" ++ bucket.text ++ ":" ++ key

structure CounterRow where
  key : String
  count : Nat
  expiresAt : Int

/-- What `INCR` and, on a new key, `PEXPIRE` make of a counter. -/
def countedRow (row : Option CounterRow) (key : String) (windowMs now : Int) : CounterRow :=
  match row with
  | some row =>
    if now < row.expiresAt then { row with count := row.count + 1 }
    else ⟨key, 1, now + windowMs⟩
  | none => ⟨key, 1, now + windowMs⟩

/-- Redis, the breaker in front of it, and a log of what has been counted: under which key and
when. -/
structure Limiter where
  counters : Table String CounterRow (·.key)
  breaker : CircuitBreaker
  log : List (String × Int)

def Limiter.start : Limiter := ⟨Table.empty _, {}, []⟩

inductive CacheError where
  | circuitOpen (e : CircuitOpenError)
  | other (message : String)

/-- `RedisCircuitBreaker.exec`: a short-circuited task is answered by the fallback. -/
def redisExec {α : Type} (o : CircuitBreakerOptions) (s : Limiter) (now settledAt : Int)
    (fallback : α) (task : Limiter → Except CacheError α × Limiter) :
    Except CacheError α × Limiter :=
  match s.breaker.exec o now with
  | .error _ => (.ok fallback, s)
  | .ok breaker =>
    match task { s with breaker } with
    | (.ok a, s') => (.ok a, { s' with breaker := s'.breaker.onSuccess })
    | (.error e, s') => (.error e, { s' with breaker := s'.breaker.onFailure o settledAt })

/-- What becomes of a command: it is executed, it is executed and the reply is lost, or it does not
get there. -/
inductive Reply where
  | counted | lost | refused

structure Hit where
  now : Int
  settledAt : Int
  reply : Reply

def Limiter.row (s : Limiter) (key : String) (now : Int) : CounterRow :=
  countedRow (s.counters.find? key) key windowMs now

def Limiter.count (s : Limiter) (key : String) (now : Int) : Limiter :=
  { s with counters := s.counters.upsert (s.row key now), log := s.log ++ [(key, now)] }

def incrementWindowCounter (o : CircuitBreakerOptions) (s : Limiter) (key : String) (hit : Hit) :
    Except CacheError Nat × Limiter :=
  redisExec o s hit.now hit.settledAt 0 fun s =>
    match hit.reply with
    | .counted => (.ok (s.row key hit.now).count, s.count key hit.now)
    | .lost => (.error (.other "Connection is closed."), s.count key hit.now)
    | .refused => (.error (.other "Connection is closed."), s)

/-! ## The limits -/

inductive RateLimitError where
  | rateLimitExceeded
  | cache (e : CacheError)

def enforceRateLimit (o : CircuitBreakerOptions) (s : Limiter) (bucket : RateLimitBucket)
    (key : String) (hit : Hit) : Except RateLimitError Unit × Limiter :=
  match incrementWindowCounter o s (rateKey bucket key) hit with
  | (.error (.circuitOpen _), s') =>
    if bucket.failsClosed then (.error .rateLimitExceeded, s') else (.ok (), s')
  | (.error (.other message), s') => (.error (.cache (.other message)), s')
  | (.ok count, s') =>
    if count > bucket.limit then (.error .rateLimitExceeded, s') else (.ok (), s')

structure RateLimitedCall where
  ipAddress : Option String
  ip : Hit
  user : Hit

def RateLimitedCall.address (call : RateLimitedCall) : String := call.ipAddress.getD "unknown"

def enforceInTurn (o : CircuitBreakerOptions) (s : Limiter) (ipBucket userBucket : RateLimitBucket)
    (call : RateLimitedCall) (userId : Option String) : Except RateLimitError Unit × Limiter :=
  match enforceRateLimit o s ipBucket call.address call.ip with
  | (.error e, s') => (.error e, s')
  | (.ok _, s') =>
    match userId with
    | some userId => enforceRateLimit o s' userBucket userId call.user
    | none => (.ok (), s')

/-- `if (userId)`: an empty id is none. -/
def knownUser (userId : Option String) : Option String := userId.filter (· ≠ "")

def enforceLoginRateLimit (o : CircuitBreakerOptions) (s : Limiter) (call : RateLimitedCall)
    (userId : Option String) : Except RateLimitError Unit × Limiter :=
  enforceInTurn o s .loginIp .loginUser call (knownUser userId)

def enforceRefreshRateLimit (o : CircuitBreakerOptions) (s : Limiter) (call : RateLimitedCall)
    (userId : String) : Except RateLimitError Unit × Limiter :=
  enforceInTurn o s .refreshIp .refreshUser call (some userId)

inductive LimiterAction where
  | login (call : RateLimitedCall) (userId : Option String)
  | refresh (call : RateLimitedCall) (userId : String)
  | others (breaker : CircuitBreaker)

def Limiter.step (o : CircuitBreakerOptions) (s : Limiter) : LimiterAction → Option Limiter
  | .login call userId => some (enforceLoginRateLimit o s call userId).2
  | .refresh call userId => some (enforceRefreshRateLimit o s call userId).2
  | .others breaker => some { s with breaker }

/-! ## What the limits are -/

structure Window where
  openedAt : Int
  calls : Nat

def Window.next (window : Option Window) (now : Int) : Window :=
  match window with
  | some window =>
    if now < window.openedAt + windowMs then { window with calls := window.calls + 1 }
    else ⟨now, 1⟩
  | none => ⟨now, 1⟩

def currentWindow (times : List Int) : Option Window :=
  times.foldl (fun window now => some (Window.next window now)) none

def timesOf (key : String) (log : List (String × Int)) : List Int :=
  (log.filter (·.1 = key)).map (·.2)

def callsInWindow (s : Limiter) (bucket : RateLimitBucket) (key : String) (now : Int) : Nat :=
  (Window.next (currentWindow (timesOf (rateKey bucket key) s.log)) now).calls

/-- The counters of the call can be incremented: the breaker is not in the way and Redis answers. -/
def Countable (o : CircuitBreakerOptions) (s : Limiter) (call : RateLimitedCall)
    (userId : Option String) : Prop :=
  (∃ breaker, s.breaker.exec o call.ip.now = .ok breaker) ∧ call.ip.reply = .counted ∧
    (userId.isSome → call.user.reply = .counted)

/-- The breaker is open at both checks. -/
def ShortCircuits (o : CircuitBreakerOptions) (s : Limiter) (call : RateLimitedCall) : Prop :=
  (∃ e, s.breaker.exec o call.ip.now = .error e) ∧ ∃ e, s.breaker.exec o call.user.now = .error e

/-- What a call should come to: it is accepted just when both its windows have room for it, and it
is not when the breaker short-circuits and a user is involved. -/
structure LimitsHold (o : CircuitBreakerOptions) (s : Limiter) (ipBucket userBucket : RateLimitBucket)
    (call : RateLimitedCall) (userId : Option String) (result : Except RateLimitError Unit) :
    Prop where
  exact : Countable o s call userId →
    (result = .ok () ↔
      callsInWindow s ipBucket call.address call.ip.now ≤ ipBucket.limit ∧
        ∀ user, userId = some user →
          callsInWindow s userBucket user call.user.now ≤ userBucket.limit)
  closed : userId.isSome → ShortCircuits o s call → result ≠ .ok ()

/-- A call is let through while its windows have room. -/
def CallsLimited (o : CircuitBreakerOptions) (s : Limiter) (a : LimiterAction) (_ : Limiter) : Prop :=
  match a with
  | .login call userId =>
    LimitsHold o s .loginIp .loginUser call (knownUser userId)
      (enforceLoginRateLimit o s call userId).1
  | .refresh call userId =>
    LimitsHold o s .refreshIp .refreshUser call (some userId)
      (enforceRefreshRateLimit o s call userId).1
  | .others _ => True

def NoUserShortCircuited (o : CircuitBreakerOptions) (s : Limiter) : LimiterAction → Prop
  | .login call userId => ¬ ((knownUser userId).isSome ∧ ShortCircuits o s call)
  | .refresh call _ => ¬ ShortCircuits o s call
  | .others _ => True

/-! ## The counters and the windows -/

/-- Every counter counts the calls of its window. -/
def Tracks (s : Limiter) : Prop :=
  ∀ key, s.counters.find? key = (currentWindow (timesOf key s.log)).map
    fun window => ⟨key, window.calls, window.openedAt + windowMs⟩

theorem currentWindow_snoc (times : List Int) (now : Int) :
    currentWindow (times ++ [now]) = some (Window.next (currentWindow times) now) := by
  rw [currentWindow, List.foldl_append]
  rfl

theorem timesOf_snoc_self (key : String) (log : List (String × Int)) (now : Int) :
    timesOf key (log ++ [(key, now)]) = timesOf key log ++ [now] := by
  simp [timesOf, List.filter_append]

theorem timesOf_snoc_ne {key other : String} (h : other ≠ key) (log : List (String × Int))
    (now : Int) : timesOf key (log ++ [(other, now)]) = timesOf key log := by
  simp [timesOf, List.filter_append, h]

theorem Tracks.row {s : Limiter} (h : Tracks s) (key : String) (now : Int) :
    s.row key now = ⟨key, (Window.next (currentWindow (timesOf key s.log)) now).calls,
      (Window.next (currentWindow (timesOf key s.log)) now).openedAt + windowMs⟩ := by
  unfold Limiter.row
  rw [h key]
  cases currentWindow (timesOf key s.log) with
  | none => rfl
  | some window =>
    simp only [Option.map_some, countedRow, Window.next]
    split
    · rfl
    · rfl

theorem Tracks.count {s : Limiter} (h : Tracks s) (key : String) (now : Int) :
    Tracks (s.count key now) := by
  intro k
  have hkey : (s.row key now).key = key := by rw [h.row key now]
  show (s.counters.upsert (s.row key now)).find? k = _
  rw [Table.find?_upsert, hkey]
  by_cases hk : k = key
  · rw [if_pos hk, hk]
    show _ = (currentWindow (timesOf key (s.log ++ [(key, now)]))).map _
    rw [timesOf_snoc_self, currentWindow_snoc, Option.map_some, h.row key now]
  · rw [if_neg hk, h k]
    show _ = (currentWindow (timesOf k (s.log ++ [(key, now)]))).map _
    rw [timesOf_snoc_ne (Ne.symm hk)]

theorem Tracks.of_eq {s s' : Limiter} (h : Tracks s) (hcounters : s'.counters = s.counters)
    (hlog : s'.log = s.log) : Tracks s' := by
  intro key
  rw [hcounters, hlog]
  exact h key

theorem key_ne_of_take_ne (p q : String) {name name' : String} (n : Nat)
    (hn : n ≤ name.toList.length) (hn' : n ≤ name'.toList.length)
    (hne : name.toList.take n ≠ name'.toList.take n) (a b : String) :
    p ++ name ++ q ++ a ≠ p ++ name' ++ q ++ b := by
  intro h
  have hlist := congrArg String.toList h
  simp only [String.toList_append, List.append_assoc] at hlist
  have htake := congrArg (List.take n) (List.append_cancel_left hlist)
  rw [List.take_append_of_le_length hn, List.take_append_of_le_length hn'] at htake
  exact hne htake

theorem rateKey_loginIp_ne (a b : String) : rateKey .loginIp a ≠ rateKey .loginUser b :=
  key_ne_of_take_ne "auth:rate_limit:" ":" 7 (by decide) (by decide) (by decide) a b

theorem rateKey_refreshIp_ne (a b : String) : rateKey .refreshIp a ≠ rateKey .refreshUser b :=
  key_ne_of_take_ne "auth:rate_limit:" ":" 9 (by decide) (by decide) (by decide) a b

/-! ## One increment -/

section Increment

variable {o : CircuitBreakerOptions} {s : Limiter} {bucket : RateLimitBucket} {key : String}
  {hit : Hit}

theorem enforce_of_shortCircuited {e : CircuitOpenError} (h : s.breaker.exec o hit.now = .error e) :
    enforceRateLimit o s bucket key hit = (.ok (), s) := by
  unfold enforceRateLimit incrementWindowCounter redisExec
  rw [h]
  rfl

/-- An increment that goes through: the call is accepted if the window has room for it, it is
counted, and the breaker lets the next one through. -/
theorem enforce_of_counted (ht : Tracks s) {breaker : CircuitBreaker}
    (h : s.breaker.exec o hit.now = .ok breaker) (hreply : hit.reply = .counted) :
    ((enforceRateLimit o s bucket key hit).1 = .ok () ↔
        callsInWindow s bucket key hit.now ≤ bucket.limit) ∧
      (enforceRateLimit o s bucket key hit).2.log = s.log ++ [(rateKey bucket key, hit.now)] ∧
      (enforceRateLimit o s bucket key hit).2.breaker = breaker.onSuccess := by
  have hcount : (Limiter.row { s with breaker } (rateKey bucket key) hit.now).count
      = callsInWindow s bucket key hit.now := by
    have hrow := ht.row (rateKey bucket key) hit.now
    exact congrArg CounterRow.count hrow
  unfold enforceRateLimit incrementWindowCounter redisExec
  rw [h]
  simp only [hreply, hcount]
  split
  · next hover =>
    refine ⟨iff_of_false (by simp) (Nat.not_le.mpr hover), rfl, rfl⟩
  · next hroom =>
    exact ⟨iff_of_true rfl (Nat.not_lt.mp hroom), rfl, rfl⟩

theorem exec_onSuccess {b b' : CircuitBreaker} {now : Int} (h : b.exec o now = .ok b') (later : Int) :
    ∃ b'', b'.onSuccess.exec o later = .ok b'' := by
  have hrun : b'.state ≠ .opened := by
    rcases exec_ok o b now h with ⟨hne, rfl⟩ | ⟨-, -, hhalf, -⟩
    · exact hne
    · rw [hhalf]
      decide
  have hclosed : b'.onSuccess.state ≠ .opened := by
    rw [onSuccess_state]
    split
    · decide
    · exact hrun
  refine ⟨b'.onSuccess, ?_⟩
  unfold CircuitBreaker.exec
  rw [if_neg hclosed]

theorem Tracks.enforceRateLimit (ht : Tracks s) :
    Tracks (enforceRateLimit o s bucket key hit).2 := by
  have hincrement : Tracks (incrementWindowCounter o s (rateKey bucket key) hit).2 := by
    unfold incrementWindowCounter redisExec
    cases s.breaker.exec o hit.now with
    | error e => exact ht
    | ok breaker =>
      have hbreaker : Tracks { s with breaker } := ht.of_eq rfl rfl
      cases hit.reply with
      | counted | lost => exact (hbreaker.count _ _).of_eq rfl rfl
      | refused => exact hbreaker.of_eq rfl rfl
  unfold Auth.enforceRateLimit
  cases hresult : incrementWindowCounter o s (rateKey bucket key) hit with
  | mk result s' =>
    rw [hresult] at hincrement
    cases result with
    | ok count =>
      simp only
      split
      · exact hincrement
      · exact hincrement
    | error e =>
      cases e with
      | circuitOpen e =>
        simp only
        split
        · exact hincrement
        · exact hincrement
      | other message => exact hincrement

end Increment

/-! ## One call -/

section InTurn

variable {o : CircuitBreakerOptions} {s : Limiter} {ipBucket userBucket : RateLimitBucket}
  {call : RateLimitedCall} {userId : Option String}

theorem Tracks.enforceInTurn (ht : Tracks s) :
    Tracks (enforceInTurn o s ipBucket userBucket call userId).2 := by
  have hip : Tracks (Auth.enforceRateLimit o s ipBucket call.address call.ip).2 :=
    ht.enforceRateLimit
  unfold Auth.enforceInTurn
  cases hresult : Auth.enforceRateLimit o s ipBucket call.address call.ip with
  | mk result s' =>
    rw [hresult] at hip
    cases result with
    | error e => exact hip
    | ok _ =>
      cases userId with
      | none => exact hip
      | some user => exact Tracks.enforceRateLimit hip

/-- **A call is what it should be unless it involves a user and is short-circuited**: then both
increments are answered by the fallback, and it is accepted. -/
theorem limitsHold_iff (ht : Tracks s)
    (hkeys : ∀ a b, rateKey ipBucket a ≠ rateKey userBucket b) :
    LimitsHold o s ipBucket userBucket call userId
        (enforceInTurn o s ipBucket userBucket call userId).1 ↔
      ¬ (userId.isSome ∧ ShortCircuits o s call) := by
  constructor
  · rintro h ⟨hsome, hshort⟩
    refine h.closed hsome hshort ?_
    obtain ⟨⟨e, he⟩, e', he'⟩ := hshort
    obtain ⟨user, rfl⟩ := Option.isSome_iff_exists.mp hsome
    unfold enforceInTurn
    rw [enforce_of_shortCircuited he]
    simp only
    rw [enforce_of_shortCircuited he']
  · intro hn
    refine ⟨?_, fun hsome hshort => absurd ⟨hsome, hshort⟩ hn⟩
    rintro ⟨⟨breaker, hbreaker⟩, hreply, huser⟩
    have hip : ((enforceRateLimit o s ipBucket call.address call.ip).1 = .ok () ↔
          callsInWindow s ipBucket call.address call.ip.now ≤ ipBucket.limit) ∧ _ ∧ _ :=
      enforce_of_counted ht hbreaker hreply
    obtain ⟨haccept, hlog, hafter⟩ := hip
    have ht' : Tracks (enforceRateLimit o s ipBucket call.address call.ip).2 :=
      ht.enforceRateLimit
    unfold enforceInTurn
    cases hresult : enforceRateLimit o s ipBucket call.address call.ip with
    | mk result s' =>
      rw [hresult] at haccept hlog hafter ht'
      cases result with
      | error e =>
        refine iff_of_false (by simp) ?_
        rintro ⟨hip, -⟩
        cases haccept.mpr hip
      | ok _ =>
        have hip := haccept.mp rfl
        cases userId with
        | none => exact iff_of_true rfl ⟨hip, fun user h => nomatch h⟩
        | some user =>
          have hexec : ∃ b, s'.breaker.exec o call.user.now = .ok b := by
            rw [hafter]
            exact exec_onSuccess hbreaker call.user.now
          obtain ⟨b, hb⟩ := hexec
          have haccept' : (enforceRateLimit o s' userBucket user call.user).1 = .ok () ↔
              callsInWindow s' userBucket user call.user.now ≤ userBucket.limit :=
            (enforce_of_counted ht' hb (huser rfl)).1
          have hsame : callsInWindow s' userBucket user call.user.now
              = callsInWindow s userBucket user call.user.now := by
            unfold callsInWindow
            rw [hlog, timesOf_snoc_ne (hkeys _ _)]
          rw [hsame] at haccept'
          refine haccept'.trans ⟨fun h => ⟨hip, ?_⟩, fun h => h.2 user rfl⟩
          rintro user' ⟨⟩
          exact h

end InTurn

/-! ## Every run -/

theorem Limiter.step_enabled (o : CircuitBreakerOptions) (s : Limiter) (a : LimiterAction) :
    ∃ s', s.step o a = some s' := by
  cases a with
  | login call userId => exact ⟨_, rfl⟩
  | refresh call userId => exact ⟨_, rfl⟩
  | others breaker => exact ⟨_, rfl⟩

theorem Tracks.step {o : CircuitBreakerOptions} {s s' : Limiter} {a : LimiterAction}
    (ht : Tracks s) (hs : s.step o a = some s') : Tracks s' := by
  cases a with
  | login call userId =>
    rw [← Option.some.inj hs]
    exact ht.enforceInTurn
  | refresh call userId =>
    rw [← Option.some.inj hs]
    exact ht.enforceInTurn
  | others breaker =>
    cases hs
    exact ht.of_eq rfl rfl

/-- **The rate limits hold exactly when no call that involves a user is short-circuited.** In every
sequence of calls, from whatever state the breaker is in between them: each call whose counters can
be incremented is accepted just when both its windows have room, and one that is short-circuited is
turned away if it involves a user, if and only if there is no call of the latter kind. -/
theorem callsLimited_iff (o : CircuitBreakerOptions) (as : List LimiterAction) :
    EachStep (Limiter.step o) (CallsLimited o) Limiter.start as ↔
      Along (Limiter.step o) (NoUserShortCircuited o) Limiter.start as := by
  obtain ⟨s, hs⟩ := exec_of_enabled (Limiter.step_enabled o) Limiter.start as
  have hstart : Tracks Limiter.start := fun _ => rfl
  refine along_iff_eachStep (fun _ _ _ ht hstep => ht.step hstep) ?_ hs hstart
  intro s a s' ht _
  cases a with
  | login call userId => exact (limitsHold_iff ht rateKey_loginIp_ne).symm
  | refresh call userId =>
    refine Iff.trans ?_ (limitsHold_iff ht rateKey_refreshIp_ne).symm
    simp [NoUserShortCircuited]
  | others breaker => exact Iff.rfl

/-- The breaker opened a second ago, and somebody logs in: neither increment is made, nothing has
been counted, and the login is let through. -/
theorem login_accepted_while_open :
    let o : CircuitBreakerOptions := ⟨5, 30000, by decide, by decide⟩
    let opened : CircuitBreaker := ⟨.opened, 5, some 0, []⟩
    let hit : Hit := ⟨1000, 1000, .refused⟩
    ¬ EachStep (Limiter.step o) (CallsLimited o) Limiter.start
      [.others opened, .login ⟨some "203.0.113.7", hit, hit⟩ (some "ada")] := by
  intro o opened hit h
  have hlimits : LimitsHold o { Limiter.start with breaker := opened } .loginIp .loginUser
      ⟨some "203.0.113.7", hit, hit⟩ (some "ada") (.ok ()) :=
    h [.others opened] _ _ _ (List.prefix_refl _) rfl rfl
  exact hlimits.closed rfl ⟨⟨_, rfl⟩, _, rfl⟩ rfl

end QuizBackend.Auth
