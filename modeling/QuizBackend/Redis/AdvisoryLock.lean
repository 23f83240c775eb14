import QuizBackend.Lib.Exclusive
import QuizBackend.Lib.Leases
import QuizBackend.Lib.Run

/-!
# Advisory locks (`redis.service.ts`)

`acquireAdvisoryLock` sets a key with `NX` and a time to live to a token drawn for the call;
`releaseAdvisoryLock` and `renewAdvisoryLock` are scripts that compare the token before they delete
the key or set its time to live anew. A holder that comes late compares in vain.

Redis carries out a command at one moment; what is interleaved is the calls, of any number of callers,
with the passing of time. A call may be answered by the breaker instead, before its command is sent, and
a command that Redis has carried out may lose its answer, after which the client sends it again or gives
up. Time to live that Redis cannot read as an integer is an error like any other.
-/

namespace QuizBackend.Redis.Advisory

open Lib
open Option (bind_eq_some_iff ite_none_right_eq_some some.injEq)

/-! ## Redis -/

structure Server where
  clock : Int
  keys : Leases String String

inductive Reply
  | ok
  | nil
  | integer (n : Int)
  | error
  deriving DecidableEq

def Server.get (r : Server) (key : String) : Option String := r.keys.holder r.clock key

def Server.setPxNx (r : Server) (key token : String) (ttlMs : Int) : Server × Reply :=
  if ttlMs ≤ 0 then (r, .error)
  else
    match r.keys.grant? r.clock key token ttlMs with
    | some keys => ({ r with keys }, .ok)
    | none => (r, .nil)

def Server.evalRelease (r : Server) (key token : String) : Server × Reply :=
  let (keys, deleted) := r.keys.revoke r.clock key token
  ({ r with keys }, .integer (if deleted then 1 else 0))

/-- `if GET == token then PEXPIRE else 0`; `PEXPIRE` deletes a key whose time would be over. -/
def Server.evalRenew (r : Server) (key token : String) (ttlMs : Int) : Server × Reply :=
  let (keys, renewed) := r.keys.extend r.clock key token ttlMs
  ({ r with keys }, .integer (if renewed then 1 else 0))

/-! ## The methods -/

inductive Request
  | acquireAdvisoryLock (key token : String) (ttlMs : Int)
  | releaseAdvisoryLock (key token : String)
  | renewAdvisoryLock (key token : String) (ttlMs : Int)

/-- What a call returns: a token or `null`, or a boolean. -/
inductive Value
  | token (t : Option String)
  | boolean (b : Bool)
  deriving DecidableEq

def Request.fallback : Request → Value
  | .acquireAdvisoryLock _ _ _ => .token none
  | .releaseAdvisoryLock _ _ | .renewAdvisoryLock _ _ _ => .boolean false

def Request.run (r : Server) : Request → Server × Reply
  | .acquireAdvisoryLock key token ttlMs => r.setPxNx key token ttlMs
  | .releaseAdvisoryLock key token => r.evalRelease key token
  | .renewAdvisoryLock key token ttlMs => r.evalRenew key token ttlMs

/-- What the method makes of the reply; the client throws on an error. -/
def Request.result (reply : Reply) : Request → Option Value
  | .acquireAdvisoryLock _ token _ =>
    if reply = .error then none else some (.token (if reply = .ok then some token else none))
  | .releaseAdvisoryLock _ _ | .renewAdvisoryLock _ _ _ =>
    if reply = .error then none else some (.boolean (reply = .integer 1))

/-! ## The steps -/

inductive Status
  | open
  | returned (value : Value)
  | threw
  deriving DecidableEq

structure Call where
  request : Request
  status : Status := .open

structure State where
  redis : Server
  calls : List Call := []

inductive Action
  | tick (ms : Nat)
  | call (request : Request)
  | shortCircuit (i : Nat)
  | run (i : Nat)
  | runLost (i : Nat)
  | fail (i : Nat)

def Request.drawn : Request → Option String
  | .acquireAdvisoryLock _ token _ => some token
  | .releaseAdvisoryLock _ _ | .renewAdvisoryLock _ _ _ => none

/-- `crypto.randomUUID()` has not drawn the token before. -/
def State.Fresh (s : State) (request : Request) : Prop :=
  ∀ c ∈ s.calls, ∀ t ∈ c.request.drawn, request.drawn ≠ some t

instance (s : State) (request : Request) : Decidable (s.Fresh request) :=
  inferInstanceAs (Decidable (∀ c ∈ s.calls, ∀ t ∈ c.request.drawn, request.drawn ≠ some t))

def State.finish (s : State) (i : Nat) (c : Call) (status : Status) : State :=
  { s with calls := s.calls.set i { c with status } }

def Call.answered (c : Call) (reply : Reply) : Status :=
  match c.request.result reply with
  | some value => .returned value
  | none => .threw

def step (s : State) : Action → Option State
  | .tick ms => some { s with redis := { s.redis with clock := s.redis.clock + ms } }
  | .call request => if s.Fresh request then some { s with calls := s.calls ++ [({ request } : Call)] } else none
  | .shortCircuit i => do
    let c ← s.calls[i]?
    if c.status = .open then some (s.finish i c (.returned c.request.fallback)) else none
  | .run i => do
    let c ← s.calls[i]?
    if c.status = .open then
      let (redis, reply) := c.request.run s.redis
      some { s.finish i c (c.answered reply) with redis }
    else none
  | .runLost i => do
    let c ← s.calls[i]?
    match c.status with
    | .open | .threw => some { s with redis := (c.request.run s.redis).1 }
    | .returned _ => none
  | .fail i => do
    let c ← s.calls[i]?
    if c.status = .open then some (s.finish i c .threw) else none

/-- Nobody has called yet; there may be locks of earlier times. -/
def State.start (redis : Server) : State := { redis }

/-! ## Exclusion -/

def State.Holds (s : State) (i : Nat) (key : String) : Prop :=
  ∃ c token ttlMs, s.calls[i]? = some c ∧ c.request = .acquireAdvisoryLock key token ttlMs ∧
    s.redis.get key = some token

/-- A lock has one token, and one caller that holds it. -/
def OneToken (s : State) : Prop :=
  (∀ l ∈ s.redis.keys.rows, ∀ l' ∈ s.redis.keys.rows, l.key = l'.key → l = l') ∧
    ∀ i j key, s.Holds i key → s.Holds j key → i = j

def Request.compares : Request → Option (String × String)
  | .acquireAdvisoryLock _ _ _ => none
  | .releaseAdvisoryLock key token | .renewAdvisoryLock key token _ => some (key, token)

def Action.of : Action → Option Nat
  | .tick _ | .call _ => none
  | .shortCircuit i | .run i | .runLost i | .fail i => some i

/-- A step of a release or a renewal whose token is not the stored one changes nothing, and returns
`false` if it returns. -/
def RefusesForeign (s : State) (a : Action) (s' : State) : Prop :=
  ∀ i c key token, a.of = some i → s.calls[i]? = some c → c.request.compares = some (key, token) →
    s.redis.get key ≠ some token →
    s'.redis = s.redis ∧ ∀ c' v, s'.calls[i]? = some c' → c'.status = .returned v → v = .boolean false

def Acquires (s : State) (i : Nat) (s' : State) (key token : String) (ttlMs : Int) : Prop :=
  s.calls[i]? = some { request := .acquireAdvisoryLock key token ttlMs } ∧
    s'.calls[i]? = some
      { request := .acquireAdvisoryLock key token ttlMs, status := .returned (.token (some token)) }

def State.command (s : State) : Action → Option Request
  | .run i | .runLost i => s.calls[i]?.map (·.request)
  | .tick _ | .call _ | .shortCircuit _ | .fail _ => none

/-- The end of a lease after a step of which it has not been over before: its release ends it, its
renewal sets it anew. -/
def State.leaseStep (s : State) (key token : String) (a : Action) (e : Int) : Option Int :=
  match s.command a with
  | some (.releaseAdvisoryLock k t) => if k = key ∧ t = token then none else some e
  | some (.renewAdvisoryLock k t ttlMs) =>
    if k = key ∧ t = token then some (s.redis.clock + ttlMs) else some e
  | some (.acquireAdvisoryLock _ _ _) | none => some e

/-- When the lease that the token has on the key until `e` ends, read off the releases and renewals of
its own; none when it is over. -/
def leaseEnd (key token : String) : State → List Action → Int → Option Int
  | s, [], e => if s.redis.clock < e then some e else none
  | s, a :: as, e =>
    if s.redis.clock < e then
      match step s a, s.leaseStep key token a e with
      | some s', some e' => leaseEnd key token s' as e'
      | _, _ => none
    else none

/-- From the step in which a call gets the lock until its lease ends, the lock has its token, and no
other call gets it. -/
def Excludes (s₀ : State) (as : List Action) : Prop :=
  ∀ pre i mid m m₁ m₂ key token ttlMs, pre ++ .run i :: mid <+: as →
    exec step s₀ pre = some m → step m (.run i) = some m₁ → exec step m₁ mid = some m₂ →
    Acquires m i m₁ key token ttlMs →
    (leaseEnd key token m₁ mid (m.redis.clock + ttlMs)).isSome →
    m₂.redis.get key = some token ∧
      ∀ a j m₃ token' ttlMs', step m₂ a = some m₃ → ¬ Acquires m₂ j m₃ key token' ttlMs'

/-! ## What a step does -/

variable {ttlMs e e' : Int} {s s' : State} {a : Action} {as : List Action}

section Commands

variable {r : Server} {key token : String}

theorem evalRelease_of_ne (h : r.get key ≠ some token) :
    r.evalRelease key token = (r, .integer 0) := by
  rw [Server.evalRelease, Leases.revoke_of_ne h]
  rfl

theorem evalRenew_of_ne (h : r.get key ≠ some token) (ttlMs : Int) :
    r.evalRenew key token ttlMs = (r, .integer 0) := by
  rw [Server.evalRenew, Leases.extend_of_ne h]
  rfl

theorem run_of_ne {request : Request} (hc : request.compares = some (key, token))
    (h : r.get key ≠ some token) : request.run r = (r, .integer 0) := by
  cases request with
  | acquireAdvisoryLock => cases hc
  | releaseAdvisoryLock =>
    cases hc
    exact evalRelease_of_ne h
  | renewAdvisoryLock =>
    cases hc
    exact evalRenew_of_ne h _

theorem refused_of_compares {request : Request} (hc : request.compares = some (key, token)) :
    request.fallback = .boolean false ∧ request.result (.integer 0) = some (.boolean false) := by
  cases request with
  | acquireAdvisoryLock => cases hc
  | releaseAdvisoryLock | renewAdvisoryLock => exact ⟨rfl, rfl⟩

theorem holds_of_setPxNx (h : (r.setPxNx key token ttlMs).2 = .ok) :
    (r.setPxNx key token ttlMs).1.keys.Holds key token (r.clock + ttlMs) := by
  unfold Server.setPxNx at h ⊢
  by_cases hpos : ttlMs ≤ 0
  · rw [if_pos hpos] at h
    cases h
  · rw [if_neg hpos] at h ⊢
    cases hkeys : r.keys.grant? r.clock key token ttlMs with
    | none =>
      rw [hkeys] at h
      cases h
    | some keys => exact Leases.holds_of_grant? hkeys

theorem setPxNx_ne_ok (h : r.keys.Holds key token e) (he : r.clock < e) (token' : String)
    (ttlMs : Int) : (r.setPxNx key token' ttlMs).2 ≠ .ok := by
  unfold Server.setPxNx
  rw [h.grant? he]
  split
  · exact fun h => by cases h
  · exact fun h => by cases h

/-- **A command keeps the lease of a token on a key, unless it is its release or its renewal.** -/
theorem holds_run (h : r.keys.Holds key token e) (he : r.clock < e) {request : Request}
    (hne : request.compares ≠ some (key, token)) : (request.run r).1.keys.Holds key token e := by
  cases request with
  | acquireAdvisoryLock k t ttlMs =>
    show (r.setPxNx k t ttlMs).1.keys.Holds key token e
    unfold Server.setPxNx
    split
    · exact h
    · split
      · rename_i keys hkeys
        exact h.of_grant? he hkeys
      · exact h
  | releaseAdvisoryLock k t =>
    refine h.revoke he ?_
    rintro ⟨rfl, rfl⟩
    exact hne rfl
  | renewAdvisoryLock k t ttlMs =>
    refine h.extend he ?_ ttlMs
    rintro ⟨rfl, rfl⟩
    exact hne rfl

end Commands

inductive RedisStep (s s' : State) (a : Action) : Prop
  | quiet (hnone : s.command a = none) (hkeys : s'.redis.keys = s.redis.keys)
      (hof : a.of ≠ none → s'.redis = s.redis)
  | command (request : Request) (hsome : s.command a = some request)
      (hredis : s'.redis = (request.run s.redis).1)

theorem redis_step (h : step s a = some s') : RedisStep s s' a := by
  cases a with
  | tick ms =>
    cases h
    exact .quiet rfl rfl fun hof => absurd rfl hof
  | call request =>
    obtain ⟨-, h⟩ := ite_none_right_eq_some.mp h
    cases h
    exact .quiet rfl rfl fun _ => rfl
  | shortCircuit i =>
    obtain ⟨c, hc, h⟩ := bind_eq_some_iff.mp h
    obtain ⟨-, h⟩ := ite_none_right_eq_some.mp h
    cases h
    exact .quiet rfl rfl fun _ => rfl
  | run i =>
    obtain ⟨c, hc, h⟩ := bind_eq_some_iff.mp h
    obtain ⟨-, h⟩ := ite_none_right_eq_some.mp h
    cases h
    exact .command c.request (by rw [State.command, hc]; rfl) rfl
  | runLost i =>
    obtain ⟨c, hc, h⟩ := bind_eq_some_iff.mp h
    have hcommand : s.command (.runLost i) = some c.request := by rw [State.command, hc]; rfl
    split at h
    · cases h
      exact .command c.request hcommand rfl
    · cases h
      exact .command c.request hcommand rfl
    · cases h
  | fail i =>
    obtain ⟨c, hc, h⟩ := bind_eq_some_iff.mp h
    obtain ⟨-, h⟩ := ite_none_right_eq_some.mp h
    cases h
    exact .quiet rfl rfl fun _ => rfl

inductive CallsStep (s s' : State) (a : Action) : Prop
  | same (h : s'.calls = s.calls)
      (hend : ∀ i c v, a.of = some i → s.calls[i]? = some c → c.status ≠ .returned v)
  | comes (request : Request) (hfresh : s.Fresh request) (hof : a.of = none)
      (h : s'.calls = s.calls ++ [({ request } : Call)])
  | ends (i : Nat) (c : Call) (status : Status) (hof : a.of = some i) (hc : s.calls[i]? = some c)
      (hopen : c.status = .open)
      (hstatus : status = .returned c.request.fallback ∧ a = .shortCircuit i ∨
        status = c.answered (c.request.run s.redis).2 ∧ a = .run i ∨ status = .threw)
      (h : s'.calls = s.calls.set i { c with status })

theorem calls_step (h : step s a = some s') : CallsStep s s' a := by
  cases a with
  | tick ms =>
    cases h
    exact .same rfl fun _ _ _ hof => by cases hof
  | call request =>
    obtain ⟨hfresh, h⟩ := ite_none_right_eq_some.mp h
    cases h
    exact .comes request hfresh rfl rfl
  | shortCircuit i =>
    obtain ⟨c, hc, h⟩ := bind_eq_some_iff.mp h
    obtain ⟨hopen, h⟩ := ite_none_right_eq_some.mp h
    cases h
    exact .ends i c _ rfl hc hopen (.inl ⟨rfl, rfl⟩) rfl
  | run i =>
    obtain ⟨c, hc, h⟩ := bind_eq_some_iff.mp h
    obtain ⟨hopen, h⟩ := ite_none_right_eq_some.mp h
    cases h
    exact .ends i c _ rfl hc hopen (.inr (.inl ⟨rfl, rfl⟩)) rfl
  | runLost i =>
    obtain ⟨c, hc, h⟩ := bind_eq_some_iff.mp h
    have hsame : ∀ {status}, c.status = status → (∀ v, status ≠ .returned v) →
        CallsStep s { s with redis := (c.request.run s.redis).1 } (.runLost i) := by
      intro status hstatus hne
      refine .same rfl ?_
      rintro j d v ⟨⟩ hd
      rw [hc, some.injEq] at hd
      rw [← hd, hstatus]
      exact hne v
    split at h
    · rename_i hopen
      cases h
      exact hsame hopen fun _ h => by cases h
    · rename_i hthrew
      cases h
      exact hsame hthrew fun _ h => by cases h
    · cases h
  | fail i =>
    obtain ⟨c, hc, h⟩ := bind_eq_some_iff.mp h
    obtain ⟨hopen, h⟩ := ite_none_right_eq_some.mp h
    cases h
    exact .ends i c _ rfl hc hopen (.inr (.inr rfl)) rfl

/-! ## Leases -/

variable {key token : String}

theorem leaseEnd_some (h : leaseEnd key token s as e = some e') : s.redis.clock < e := by
  cases as with
  | nil => exact (ite_none_right_eq_some.mp h).1
  | cons a as => exact (ite_none_right_eq_some.mp h).1

/-- **A step keeps a lease until the end it has after the step**, if that is not over then. -/
theorem holds_step (h : s.redis.keys.Holds key token e) (he : s.redis.clock < e)
    (hstep : step s a = some s') (hlease : s.leaseStep key token a e = some e')
    (he' : s'.redis.clock < e') : s'.redis.keys.Holds key token e' := by
  unfold State.leaseStep at hlease
  cases redis_step hstep with
  | quiet hnone hkeys _ =>
    rw [hnone] at hlease
    cases hlease
    rw [hkeys]
    exact h
  | command request hsome hredis =>
    rw [hsome] at hlease
    rw [hredis] at he' ⊢
    cases request with
    | acquireAdvisoryLock k t ttlMs =>
      cases hlease
      exact holds_run h he fun h => by cases h
    | releaseAdvisoryLock k t =>
      obtain ⟨hother, hlease⟩ := Option.ite_none_left_eq_some.mp hlease
      cases hlease
      refine holds_run h he ?_
      rintro ⟨⟩
      exact hother ⟨rfl, rfl⟩
    | renewAdvisoryLock k t ttlMs =>
      replace hlease : (if k = key ∧ t = token then some (s.redis.clock + ttlMs) else some e) =
        some e' := hlease
      by_cases hown : k = key ∧ t = token
      · obtain ⟨rfl, rfl⟩ := hown
        rw [if_pos ⟨rfl, rfl⟩] at hlease
        cases hlease
        -- the renewal has not moved the clock, so its time is positive
        have hpos : s.redis.clock < s.redis.clock + ttlMs := he'
        exact h.extend_self he (by omega)
      · rw [if_neg hown] at hlease
        cases hlease
        refine holds_run h he ?_
        rintro ⟨⟩
        exact hown ⟨rfl, rfl⟩

/-- **The key is the token's until its lease ends.** -/
theorem holds_of_leaseEnd {t : State} (h : s.redis.keys.Holds key token e)
    (ht : exec step s as = some t) (hend : leaseEnd key token s as e = some e') :
    t.redis.keys.Holds key token e' ∧ t.redis.clock < e' := by
  induction as generalizing s e with
  | nil =>
    have hlt := leaseEnd_some hend
    rw [leaseEnd, if_pos hlt, some.injEq] at hend
    rw [exec_nil, some.injEq] at ht
    rw [← ht, ← hend]
    exact ⟨h, hlt⟩
  | cons a as ih =>
    rw [exec_cons] at ht
    obtain ⟨s', hs', ht⟩ := bind_eq_some_iff.mp ht
    rw [leaseEnd] at hend
    obtain ⟨hlt, hend⟩ := ite_none_right_eq_some.mp hend
    rw [hs'] at hend
    cases hlease : s.leaseStep key token a e with
    | none =>
      rw [hlease] at hend
      cases hend
    | some e₁ =>
      rw [hlease] at hend
      exact ih (holds_step h hlt hs' hlease (leaseEnd_some hend)) ht hend

theorem Acquires.ok {i : Nat} (h : Acquires s i s' key token ttlMs) (hstep : step s a = some s') :
    a = .run i ∧ (s.redis.setPxNx key token ttlMs).2 = .ok := by
  obtain ⟨hbefore, hafter⟩ := h
  cases calls_step hstep with
  | same hcalls _ =>
    rw [hcalls, hbefore] at hafter
    cases hafter
  | comes request hfresh hof hcalls =>
    rw [hcalls, List.getElem?_append_left (List.getElem?_eq_some_iff.mp hbefore).1, hbefore] at hafter
    cases hafter
  | ends j c status hof hc hopen hstatus hcalls =>
    by_cases hj : j = i
    · subst hj
      rw [hbefore, some.injEq] at hc
      subst hc
      rw [hcalls, List.getElem?_set_self (List.getElem?_eq_some_iff.mp hbefore).1,
        some.injEq, Call.mk.injEq] at hafter
      obtain ⟨-, rfl⟩ := hafter
      rcases hstatus with ⟨hstatus, -⟩ | ⟨hstatus, ha⟩ | hstatus
      · cases hstatus
      · refine ⟨ha, ?_⟩
        cases hreply : (s.redis.setPxNx key token ttlMs).2 with
        | ok => rfl
        | nil | integer | error => simp [Call.answered, Request.result, Request.run, hreply] at hstatus
      · cases hstatus
    · rw [hcalls, List.getElem?_set_ne hj, hbefore] at hafter
      cases hafter

theorem Acquires.holds {i : Nat} (h : Acquires s i s' key token ttlMs) (hstep : step s a = some s') :
    s'.redis.keys.Holds key token (s.redis.clock + ttlMs) := by
  obtain ⟨rfl, hok⟩ := h.ok hstep
  have hcommand : s.command (.run i) = some (.acquireAdvisoryLock key token ttlMs) := by
    rw [State.command, h.1]
    rfl
  cases redis_step hstep with
  | quiet hnone _ _ =>
    rw [hcommand] at hnone
    cases hnone
  | command request hsome hredis =>
    rw [hcommand, some.injEq] at hsome
    subst hsome
    rw [hredis]
    exact holds_of_setPxNx hok

/-! ## Runs -/

def Distinct (s : State) : Prop := Exclusive (fun c : Call => c.request.drawn) s.calls

theorem Distinct.step (h : Distinct s) (hstep : step s a = some s') : Distinct s' := by
  unfold Distinct
  cases calls_step hstep with
  | same hcalls _ =>
    rw [hcalls]
    exact h
  | comes request hfresh hof hcalls =>
    rw [hcalls]
    refine Exclusive.append_list h (exclusive_singleton _) ?_
    intro c hc t ht d hd hd'
    obtain rfl := List.mem_singleton.mp hc
    exact hfresh d hd t hd' ht
  | ends i c status hof hc hopen hstatus hcalls =>
    rw [hcalls]
    exact Exclusive.set h hc fun _ hk => .inl hk

theorem oneToken (h : Distinct s) : OneToken s := by
  refine ⟨fun l hl l' hl' hkey => s.redis.keys.eq_of_key_eq hl hl' hkey, ?_⟩
  rintro i j key ⟨c, token, ttlMs, hc, hrequest, htoken⟩ ⟨d, token', ttlMs', hd, hrequest', htoken'⟩
  rw [htoken, some.injEq] at htoken'
  subst htoken'
  exact h i j c d token hc hd (congrArg Request.drawn hrequest) (congrArg Request.drawn hrequest')

theorem refusesForeign (hstep : step s a = some s') : RefusesForeign s a s' := by
  intro i c key token hof hc hcompares hne
  have hrun := run_of_ne hcompares hne
  have hcommand : ∀ request, s.command a = some request → request = c.request := by
    intro request h
    cases a with
    | run j | runLost j =>
      cases hof
      rw [State.command, hc] at h
      exact (Option.some.inj h).symm
    | tick | call | shortCircuit | fail => cases h
  constructor
  · cases redis_step hstep with
    | quiet hnone hkeys hredis => exact hredis (by rw [hof]; exact Option.some_ne_none i)
    | command request hsome hredis => rw [hredis, hcommand request hsome, hrun]
  · intro c' v hc' hv
    cases calls_step hstep with
    | same hcalls hend =>
      rw [hcalls, hc, some.injEq] at hc'
      exact absurd hv (hc' ▸ hend i c v hof hc)
    | comes request hfresh hnone hcalls =>
      rw [hof] at hnone
      cases hnone
    | ends j d status hj hd hopen hstatus hcalls =>
      rw [hof, some.injEq] at hj
      subst hj
      rw [hc, some.injEq] at hd
      subst hd
      rw [hcalls, List.getElem?_set_self (List.getElem?_eq_some_iff.mp hc).1, some.injEq] at hc'
      subst hc'
      obtain ⟨hfallback, hresult⟩ := refused_of_compares hcompares
      rcases hstatus with ⟨rfl, -⟩ | ⟨rfl, -⟩ | rfl
      · cases hv
        exact hfallback
      · rw [hrun, Call.answered, hresult] at hv
        cases hv
        rfl
      · cases hv

theorem excludes {s₀ : State} : Excludes s₀ as := by
  intro pre i mid m m₁ m₂ key token ttlMs _ _ hrun hmid hacquires hlease
  obtain ⟨e, hend⟩ := Option.isSome_iff_exists.mp hlease
  obtain ⟨hholds, he⟩ := holds_of_leaseEnd (hacquires.holds hrun) hmid hend
  refine ⟨hholds.holder he, ?_⟩
  intro a j m₃ token' ttlMs' hstep hacquires'
  exact setPxNx_ne_ok hholds he token' ttlMs' (hacquires'.ok hstep).2

/-- **Advisory locks exclude each other.** Whatever callers do in whatever order, a key has one token at
most; a release or a renewal with another one changes nothing and returns `false`; and from an
acquisition to its release or the end of its time, as its renewals have set it, nobody else acquires the
key. -/
theorem locks_exclude (redis : Server) (as : List Action) :
    Always step OneToken (.start redis) as ∧ EachStep step RefusesForeign (.start redis) as ∧
      Excludes (.start redis) as := by
  refine ⟨?_, ?_, excludes⟩
  · intro pre m _ hm
    exact oneToken (exec_invariant (fun _ _ _ h hstep => h.step hstep) hm exclusive_nil)
  · intro pre a m m' _ _ hstep
    exact refusesForeign hstep

/-- The first holder is late: its release is refused, the second holder's renewal is not, and a third
caller comes in vain. -/
example : (exec step (.start ⟨0, Table.empty _⟩)
    [.call (.acquireAdvisoryLock "cron" "a" 5000), .run 0, .tick 6000,
     .call (.acquireAdvisoryLock "cron" "b" 5000), .run 1,
     .call (.releaseAdvisoryLock "cron" "a"), .run 2, .tick 4000,
     .call (.renewAdvisoryLock "cron" "b" 5000), .run 3, .tick 4000,
     .call (.acquireAdvisoryLock "cron" "c" 5000), .run 4]).map (fun s => s.calls.map (·.status)) =
    some [.returned (.token (some "a")), .returned (.token (some "b")), .returned (.boolean false),
      .returned (.boolean true), .returned (.token none)] := by decide +kernel

end QuizBackend.Redis.Advisory
