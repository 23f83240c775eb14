import QuizBackend.Lib.Run

/-!
# The computing lock of a cache entry (`redis.service.ts`)

Callers of `getOrSetWithStampedeProtection` that miss an entry compete for `<key>:computing`, a key
with a time to live that is set with `NX`. Whoever sets it runs the fetcher and deletes the key in the
end. The value is `'1'` for everybody, so the `DEL` cannot tell whose lock it removes;
`releaseAdvisoryLock`, in the same class, compares a token first. A fetch that outlives its lock makes
the difference.

A call is modelled command by command, and any number of calls on one key are interleaved with the
passing of time. Who set the lock, and since when a call has held it, are ghosts. The sleep between
two retries is time like any other. The replies of Redis are free as far as its state does not decide
them: a command may fail, and the breaker may stand in for `get` and `set`.
-/

namespace QuizBackend.Redis.Computing

open Lib

/-! ## The state -/

structure Params where
  ttlMs : Int
  lockTtlMs : Int := 5000
  maxRetries : Nat := 10
  deriving DecidableEq

inductive Phase
  | starting
  | missed
  | fetching (acquiredAt : Int)
  | storing (acquiredAt : Int) (readable : Bool)
  | releasing (acquiredAt : Int)
  | waiting (retries : Nat)
  | fetchingAlone
  | storingAlone (readable : Bool)
  | done
  deriving DecidableEq

structure Caller where
  params : Params
  phase : Phase := .starting
  deriving DecidableEq

structure Lock where
  acquiredBy : Nat
  expiresAt : Int
  deriving DecidableEq

structure Entry where
  readable : Bool
  expiresAt : Int

structure State where
  clock : Int
  entry : Option Entry
  computing : Option Lock := none
  callers : List Caller := []

def State.liveLock (s : State) : Option Lock :=
  s.computing.filter fun l => s.clock < l.expiresAt

def State.hit (s : State) : Bool :=
  s.entry.any fun e => decide (s.clock < e.expiresAt) && e.readable

/-! ## The steps -/

inductive Reply
  | answered
  | shortCircuited
  | failed

inductive Action
  | tick (ms : Nat)
  | call (params : Params)
  | evict
  | get (caller : Nat) (reply : Reply)
  | lock (caller : Nat) (answered : Bool)
  | fetched (caller : Nat) (result : Option Bool)
  | set (caller : Nat) (reply : Reply)
  | del (caller : Nat) (answered : Bool)

def Phase.await : Nat → Phase
  | 0 => .fetchingAlone
  | retries + 1 => .waiting (retries + 1)

section

variable (s : State)

def State.move (i : Nat) (c : Caller) (phase : Phase) : State :=
  { s with callers := s.callers.set i { c with phase } }

/-- `get`: a value ends the call, and so does an error. -/
def stepGet (i : Nat) (c : Caller) (reply : Reply) (onMiss : Phase) : State :=
  match reply with
  | .failed => s.move i c .done
  | .shortCircuited => s.move i c onMiss
  | .answered => if s.hit then s.move i c .done else s.move i c onMiss

/-- `SET lockKey 1 PX lockTtlMs NX`; Redis refuses a time to live that is not positive. -/
def stepLock (i : Nat) (c : Caller) (answered : Bool) : State :=
  if !answered || c.params.lockTtlMs ≤ 0 then s.move i c .done
  else
    match s.liveLock with
    | some _ => s.move i c (.await c.params.maxRetries)
    | none =>
      { s.move i c (.fetching s.clock) with
        computing := some ⟨i, s.clock + c.params.lockTtlMs⟩ }

/-- `set`, which throws on a `ttlMs` that is not positive. -/
def stepSet (i : Nat) (c : Caller) (reply : Reply) (readable : Bool) (next : Phase) :
    State :=
  if c.params.ttlMs ≤ 0 then s.move i c next
  else
    match reply with
    | .answered =>
      { s.move i c next with entry := some ⟨readable, s.clock + c.params.ttlMs⟩ }
    | .shortCircuited | .failed => s.move i c next

def stepDel (i : Nat) (c : Caller) (answered : Bool) : State :=
  if answered then { s.move i c .done with computing := none } else s.move i c .done

def step : Action → Option State
  | .tick ms => some { s with clock := s.clock + ms }
  | .call params => some { s with callers := s.callers ++ [{ params }] }
  | .evict => some { s with entry := none }
  | .get i reply => do
    let c ← s.callers[i]?
    match c.phase with
    | .starting => some (stepGet s i c reply .missed)
    | .waiting (retries + 1) => some (stepGet s i c reply (.await retries))
    | _ => none
  | .lock i answered => do
    let c ← s.callers[i]?
    if c.phase = .missed then some (stepLock s i c answered) else none
  | .fetched i result => do
    let c ← s.callers[i]?
    match c.phase, result with
    | .fetching t, some readable => some (s.move i c (.storing t readable))
    | .fetching t, none => some (s.move i c (.releasing t))
    | .fetchingAlone, some readable => some (s.move i c (.storingAlone readable))
    | .fetchingAlone, none => some (s.move i c .done)
    | _, _ => none
  | .set i reply => do
    let c ← s.callers[i]?
    match c.phase with
    | .storing t readable => some (stepSet s i c reply readable (.releasing t))
    | .storingAlone readable => some (stepSet s i c reply readable .done)
    | _ => none
  | .del i answered => do
    let c ← s.callers[i]?
    match c.phase with
    | .releasing _ => some (stepDel s i c answered)
    | _ => none

end

/-- Nobody has called yet; the entry may be anything. -/
def State.start (clock : Int) (entry : Option Entry) : State := { clock, entry }

/-! ## Ownership -/

/-- A `DEL` that is answered removes the lock of nobody but the caller. -/
def DelsOwn (s : State) (a : Action) (_ : State) : Prop :=
  ∀ i l, a = .del i true → s.liveLock = some l → l.acquiredBy = i

/-- The caller `i` has acquired the lock at `t`, it lasts until `e`, and the fetcher is running. -/
def State.Fetches (s : State) (i : Nat) (t e : Int) : Prop :=
  ∃ c, s.callers[i]? = some c ∧ c.phase = .fetching t ∧ e = t + c.params.lockTtlMs

/-- When two callers that acquired the lock run their fetchers, the first one's lock has expired. -/
def FetchersApart (s : State) : Prop :=
  ∀ i j t e t' e', i ≠ j → s.Fetches i t e → s.Fetches j t' e' → t ≤ t' → e ≤ s.clock

/-- A lock is deleted before its expiry, or when nobody has it. -/
def Upheld (s : State) : Action → Prop
  | .del i true => ∀ c t, s.callers[i]? = some c → c.phase = .releasing t →
      s.clock < t + c.params.lockTtlMs ∨ s.liveLock = none
  | _ => True

/-! ## What a step does to the lock -/

/-- Since when a caller has been between its `SET NX` and its `DEL`. -/
def Phase.heldSince : Phase → Option Int
  | .fetching t | .storing t _ | .releasing t => some t
  | _ => none

/-- The caller `i` acquired at `t` a lock that lasts until `e`, and has not deleted it yet. -/
def State.Holds (s : State) (i : Nat) (t e : Int) : Prop :=
  ∃ c, s.callers[i]? = some c ∧ c.phase.heldSince = some t ∧ e = t + c.params.lockTtlMs

variable {t e : Int} {s' : State} {a : Action}

theorem State.Fetches.holds {s : State} {i : Nat} (h : s.Fetches i t e) : s.Holds i t e := by
  obtain ⟨c, hc, hphase, he⟩ := h
  exact ⟨c, hc, by rw [hphase]; rfl, he⟩

structure Quiet (s s' : State) : Prop where
  computing : s'.computing = s.computing
  clock : s.clock ≤ s'.clock
  holds : ∀ i t e, s'.Holds i t e → s.Holds i t e

inductive Effect (s s' : State) : Action → Prop
  | quiet {a : Action} (ha : ∀ i, a ≠ .del i true) (h : Quiet s s') : Effect s s' a
  | acquire (i : Nat) (e : Int) (hfree : s.liveLock = none) (hlock : s'.computing = some ⟨i, e⟩)
      (hclock : s'.clock = s.clock) (he : s.clock < e)
      (holds : ∀ j t e', s'.Holds j t e' →
        j = i ∧ t = s.clock ∧ e' = e ∨ j ≠ i ∧ s.Holds j t e') : Effect s s' (.lock i true)
  | del (i : Nat) (c : Caller) (t : Int) (hc : s.callers[i]? = some c)
      (hphase : c.phase = .releasing t) (hlock : s'.computing = none) (hclock : s'.clock = s.clock)
      (holds : ∀ j t e, s'.Holds j t e → j ≠ i ∧ s.Holds j t e) : Effect s s' (.del i true)

section Moves

variable {s : State} {i : Nat} {c : Caller} {phase : Phase}

theorem holds_move {j : Nat} (hc : s.callers[i]? = some c) (h : (s.move i c phase).Holds j t e) :
    j = i ∧ phase.heldSince = some t ∧ e = t + c.params.lockTtlMs ∨ j ≠ i ∧ s.Holds j t e := by
  obtain ⟨d, hd, ht, he⟩ := h
  by_cases hj : j = i
  · subst hj
    rw [State.move, List.getElem?_set_self (List.getElem?_eq_some_iff.mp hc).1,
      Option.some.injEq] at hd
    subst hd
    exact .inl ⟨rfl, ht, he⟩
  · rw [State.move, List.getElem?_set_ne (Ne.symm hj)] at hd
    exact .inr ⟨hj, d, hd, ht, he⟩

theorem quiet_move (hc : s.callers[i]? = some c)
    (hphase : ∀ t, phase.heldSince = some t → c.phase.heldSince = some t) :
    Quiet s (s.move i c phase) where
  computing := rfl
  clock := Int.le_refl _
  holds j t e h := by
    rcases holds_move hc h with ⟨rfl, ht, he⟩ | ⟨-, h⟩
    · exact ⟨c, hc, hphase t ht, he⟩
    · exact h

theorem Quiet.entry {s : State} (h : Quiet s s') (entry : Option Entry) :
    Quiet s { s' with entry } where
  computing := h.computing
  clock := h.clock
  holds := h.holds

theorem heldSince_await (retries : Nat) : (Phase.await retries).heldSince = none := by
  cases retries <;> rfl

theorem quiet_stepGet {reply : Reply} {onMiss : Phase} (hc : s.callers[i]? = some c)
    (hmiss : onMiss.heldSince = none) : Quiet s (stepGet s i c reply onMiss) := by
  have hmove : ∀ {phase : Phase}, phase.heldSince = none → Quiet s (s.move i c phase) :=
    fun hphase => quiet_move hc fun t ht => by rw [hphase] at ht; cases ht
  unfold stepGet
  cases reply with
  | failed => exact hmove rfl
  | shortCircuited => exact hmove hmiss
  | answered =>
    cases s.hit with
    | true => exact hmove rfl
    | false => exact hmove hmiss

theorem quiet_stepSet {reply : Reply} {readable : Bool} {next : Phase}
    (hc : s.callers[i]? = some c)
    (hnext : ∀ t, next.heldSince = some t → c.phase.heldSince = some t) :
    Quiet s (stepSet s i c reply readable next) := by
  unfold stepSet
  split
  · exact quiet_move hc hnext
  · cases reply with
    | answered => exact (quiet_move hc hnext).entry _
    | shortCircuited | failed => exact quiet_move hc hnext

theorem effect_stepLock {answered : Bool} (hc : s.callers[i]? = some c) :
    Effect s (stepLock s i c answered) (.lock i answered) := by
  have hmove : ∀ {phase : Phase}, phase.heldSince = none →
      Effect s (s.move i c phase) (.lock i answered) := fun hphase =>
    .quiet nofun (quiet_move hc fun t ht => by rw [hphase] at ht; cases ht)
  unfold stepLock
  split
  · exact hmove rfl
  · rename_i hgo
    rw [Bool.or_eq_true, not_or, Bool.not_eq_true', Bool.not_eq_false, decide_eq_true_eq] at hgo
    obtain ⟨rfl, hpos⟩ := hgo
    split
    · exact hmove (heldSince_await _)
    · rename_i hfree
      refine .acquire i _ hfree rfl rfl (by omega) ?_
      intro j t e h
      rcases holds_move hc h with ⟨rfl, ht, he⟩ | hother
      · cases ht
        exact .inl ⟨rfl, rfl, he⟩
      · exact .inr hother

theorem effect_stepDel {answered : Bool} (hc : s.callers[i]? = some c)
    (hphase : c.phase = .releasing t) : Effect s (stepDel s i c answered) (.del i answered) := by
  unfold stepDel
  cases answered with
  | false => exact .quiet nofun (quiet_move hc nofun)
  | true =>
    refine .del i c t hc hphase rfl rfl ?_
    intro j t e h
    rcases holds_move hc h with ⟨-, ht, -⟩ | hother
    · cases ht
    · exact hother

end Moves

/-- **Every step leaves the lock alone, acquires it when it is free, or is a `DEL`.** -/
theorem step_effect {s : State} (h : step s a = some s') : Effect s s' a := by
  cases a with
  | tick ms =>
    cases h
    exact .quiet nofun ⟨rfl, by show s.clock ≤ s.clock + ms; omega, fun _ _ _ h => h⟩
  | call params =>
    cases h
    refine .quiet nofun ⟨rfl, Int.le_refl _, ?_⟩
    rintro i t e ⟨c, hc, ht, he⟩
    rw [List.getElem?_append] at hc
    split at hc
    · exact ⟨c, hc, ht, he⟩
    · obtain rfl := List.mem_singleton.mp (List.mem_of_getElem? hc)
      cases ht
  | evict =>
    cases h
    exact .quiet nofun ⟨rfl, Int.le_refl _, fun _ _ _ h => h⟩
  | get i reply =>
    obtain ⟨c, hc, h⟩ := Option.bind_eq_some_iff.mp h
    split at h
    · cases h
      exact .quiet nofun (quiet_stepGet hc rfl)
    · cases h
      exact .quiet nofun (quiet_stepGet hc (heldSince_await _))
    · cases h
  | lock i answered =>
    obtain ⟨c, hc, h⟩ := Option.bind_eq_some_iff.mp h
    split at h
    · cases h
      exact effect_stepLock hc
    · cases h
  | fetched i result =>
    obtain ⟨c, hc, h⟩ := Option.bind_eq_some_iff.mp h
    have hmove : ∀ {phase : Phase}, (∀ t, phase.heldSince = some t → c.phase.heldSince = some t) →
        Effect s (s.move i c phase) (.fetched i result) := fun hphase =>
      .quiet nofun (quiet_move hc hphase)
    split at h
    · rename_i t readable hphase _
      cases h
      exact hmove fun _ ht => by rw [hphase]; exact ht
    · rename_i t hphase _
      cases h
      exact hmove fun _ ht => by rw [hphase]; exact ht
    · cases h
      exact hmove nofun
    · cases h
      exact hmove nofun
    · cases h
  | set i reply =>
    obtain ⟨c, hc, h⟩ := Option.bind_eq_some_iff.mp h
    split at h
    · rename_i t readable hphase
      cases h
      exact .quiet nofun (quiet_stepSet hc fun _ ht => by rw [hphase]; exact ht)
    · cases h
      exact .quiet nofun (quiet_stepSet hc nofun)
    · cases h
  | del i answered =>
    obtain ⟨c, hc, h⟩ := Option.bind_eq_some_iff.mp h
    split at h
    · rename_i t hphase
      cases h
      exact effect_stepDel hc hphase
    · cases h

/-! ## Invariants -/

structure Inv (s : State) : Prop where
  past : ∀ i t e, s.Holds i t e → t ≤ s.clock ∧ t < e
  lasts : ∀ l t e, s.computing = some l → s.Holds l.acquiredBy t e → e = l.expiresAt

/-- A holder whose time is not over has the lock, and everybody came after the time of those before
him was over. -/
structure Owned (s : State) : Prop where
  own : ∀ i t e, s.Holds i t e → s.clock < e → s.computing = some ⟨i, e⟩
  apart : ∀ i j t e t' e', i ≠ j → s.Holds i t e → s.Holds j t' e' → t ≤ t' → e ≤ t'

theorem Inv.start (clock : Int) (entry : Option Entry) : Inv (.start clock entry) where
  past := by
    rintro i t e ⟨c, hc, -⟩
    cases hc
  lasts := nofun

theorem Owned.start (clock : Int) (entry : Option Entry) : Owned (.start clock entry) where
  own := by
    rintro i t e ⟨c, hc, -⟩
    cases hc
  apart := by
    rintro i j t e t' e' - ⟨c, hc, -⟩
    cases hc

theorem Inv.step {s : State} (h : Inv s) (hstep : step s a = some s') : Inv s' := by
  cases step_effect hstep with
  | quiet ha hq =>
    constructor
    · intro i t e hi
      obtain ⟨hpast, hlt⟩ := h.past i t e (hq.holds i t e hi)
      exact ⟨Int.le_trans hpast hq.clock, hlt⟩
    · intro l t e hl hi
      exact h.lasts l t e (hq.computing ▸ hl) (hq.holds _ t e hi)
  | acquire i e hfree hlock hclock he holds =>
    constructor
    · intro j t e' hj
      rw [hclock]
      rcases holds j t e' hj with ⟨-, rfl, rfl⟩ | ⟨-, hj⟩
      · exact ⟨Int.le_refl _, he⟩
      · exact h.past j t e' hj
    · intro l t e' hl hj
      rw [hlock, Option.some.injEq] at hl
      subst hl
      rcases holds i t e' hj with ⟨-, -, he'⟩ | ⟨hne, -⟩
      · exact he'
      · exact absurd rfl hne
  | del i c t hc hphase hlock hclock holds =>
    constructor
    · intro j t e hj
      rw [hclock]
      exact h.past j t e (holds j t e hj).2
    · intro l t e hl
      rw [hlock] at hl
      cases hl

theorem Owned.liveLock {s : State} {i : Nat} (h : Owned s) (hi : s.Holds i t e) (he : s.clock < e) :
    s.liveLock = some ⟨i, e⟩ := by
  rw [State.liveLock, h.own i t e hi he]
  simp [he]

/-- **The lock stays with its owner** in a step that does not delete too late. -/
theorem Owned.step {s : State} (hinv : Inv s) (h : Owned s) (hup : Upheld s a)
    (hstep : step s a = some s') : Owned s' := by
  cases step_effect hstep with
  | quiet ha hq =>
    constructor
    · intro i t e hi he
      rw [hq.computing]
      exact h.own i t e (hq.holds i t e hi) (Int.lt_of_le_of_lt hq.clock he)
    · intro i j t e t' e' hne hi hj
      exact h.apart i j t e t' e' hne (hq.holds i t e hi) (hq.holds j t' e' hj)
  | acquire i e hfree hlock hclock he holds =>
    -- nobody else's time is running, as the lock would have been there
    have hover : ∀ j t e', s.Holds j t e' → e' ≤ s.clock := by
      intro j t e' hj
      refine Int.not_lt.mp fun hlt => ?_
      have hlive := h.liveLock hj hlt
      rw [hfree] at hlive
      cases hlive
    constructor
    · intro j t e' hj he'
      rw [hclock] at he'
      rcases holds j t e' hj with ⟨rfl, -, rfl⟩ | ⟨-, hj⟩
      · exact hlock
      · exact absurd he' (Int.not_lt.mpr (hover j t e' hj))
    · intro j k t e₁ t' e₂ hne hj hk hle
      rcases holds j t e₁ hj with ⟨rfl, rfl, rfl⟩ | ⟨-, hj'⟩
      · rcases holds k t' e₂ hk with ⟨rfl, -, -⟩ | ⟨-, hk'⟩
        · exact absurd rfl hne
        · have hk₁ := hinv.past k t' e₂ hk'
          have hk₂ := hover k t' e₂ hk'
          omega
      · rcases holds k t' e₂ hk with ⟨-, rfl, -⟩ | ⟨-, hk'⟩
        · exact hover j t e₁ hj'
        · exact h.apart j k t e₁ t' e₂ hne hj' hk' hle
  | del i c t hc hphase hlock hclock holds =>
    constructor
    · intro j t' e hj he
      obtain ⟨hne, hj⟩ := holds j t' e hj
      rw [hclock] at he
      -- the lock that goes is the one of `j`, and `i` was not the one who had it
      have hlive := h.liveLock hj he
      rcases hup c t hc hphase with hown | hnone
      · have hi : s.Holds i t (t + c.params.lockTtlMs) := ⟨c, hc, by rw [hphase]; rfl, rfl⟩
        have hlive' := h.liveLock hi hown
        rw [hlive, Option.some.injEq, Lock.mk.injEq] at hlive'
        exact absurd hlive'.1 hne
      · rw [hnone] at hlive
        cases hlive
    · intro j k t e t' e' hne hj hk
      exact h.apart j k t e t' e' hne (holds j t e hj).2 (holds k t' e' hk).2

theorem Owned.fetchersApart {s : State} (hinv : Inv s) (h : Owned s) : FetchersApart s := by
  intro i j t e t' e' hne hi hj hle
  have hend := h.apart i j t e t' e' hne hi.holds hj.holds hle
  exact Int.le_trans hend (hinv.past j t' e' hj.holds).1

theorem Owned.delsOwn {s : State} (h : Owned s) (hup : Upheld s a)
    (hstep : Computing.step s a = some s') : DelsOwn s a s' := by
  rintro i l rfl hl
  cases step_effect hstep with
  | quiet ha hq => exact absurd rfl (ha i)
  | del _ c t hc hphase hlock hclock holds =>
    rcases hup c t hc hphase with hown | hnone
    · have hlive := h.liveLock (i := i) ⟨c, hc, by rw [hphase]; rfl, rfl⟩ hown
      rw [hl, Option.some.injEq] at hlive
      rw [hlive]
    · rw [hnone] at hl
      cases hl

theorem upheld_of_delsOwn {s : State} (hinv : Inv s) (h : DelsOwn s a s') : Upheld s a := by
  unfold Upheld
  split
  · rename_i i
    intro c t hc hphase
    cases hl : s.liveLock with
    | none => exact .inr rfl
    | some l =>
      obtain rfl := h i l rfl hl
      obtain ⟨hcomputing, hlive⟩ := Option.filter_eq_some_iff.mp hl
      have hend := hinv.lasts l t _ hcomputing ⟨c, hc, by rw [hphase]; rfl, rfl⟩
      rw [decide_eq_true_eq] at hlive
      exact .inl (hend ▸ hlive)
  · trivial

/-! ## Runs -/

/-- **A run keeps the lock with its owner exactly when every `DEL` comes before the lock it is meant
for expires, or finds none.** -/
theorem lock_owned_iff (clock : Int) (entry : Option Entry) (as : List Action) (s : State)
    (h : exec step (.start clock entry) as = some s) :
    (EachStep step DelsOwn (.start clock entry) as ∧
      Always step FetchersApart (.start clock entry) as) ↔
      Along step Upheld (.start clock entry) as := by
  have hinv : ∀ {pre m}, exec step (.start clock entry) pre = some m → Inv m := fun hm =>
    exec_invariant (fun _ _ _ hi hstep => hi.step hstep) hm (Inv.start clock entry)
  constructor
  · rintro ⟨hown, -⟩
    refine along_iff.mpr ?_
    intro pre a hpre m hm
    obtain ⟨m', hm'⟩ := exec_of_prefix h hpre
    obtain ⟨n, hn, hstep⟩ := exec_snoc.mp hm'
    rw [hm, Option.some.injEq] at hn
    subst hn
    exact upheld_of_delsOwn (hinv hm) (hown pre a m m' hpre hm hstep)
  · intro hup
    have howned : ∀ {pre m}, pre <+: as → exec step (.start clock entry) pre = some m →
        Inv m ∧ Owned m := fun hpre hm =>
      (hup.of_prefix hpre).invariant (I := fun s => Inv s ∧ Owned s)
        (fun s a s' hs hc hstep => ⟨hs.1.step hstep, hs.2.step hs.1 hc hstep⟩) hm
        ⟨Inv.start clock entry, Owned.start clock entry⟩
    constructor
    · intro pre a m m' hpre hm hstep
      have hprefix := (List.prefix_append pre [a]).trans hpre
      exact (howned hprefix hm).2.delsOwn (along_iff.mp hup pre a hpre m hm) hstep
    · intro pre m hpre hm
      obtain ⟨him, hom⟩ := howned hpre hm
      exact hom.fetchersApart him

/-! Two runs on a cold key, with the lock of five seconds. -/

instance (s : State) (a : Action) : Decidable (Upheld s a) :=
  match a with
  | .del i true =>
    match hc : s.callers[i]? with
    | some ⟨params, .releasing t⟩ =>
      decidable_of_iff (s.clock < t + params.lockTtlMs ∨ s.liveLock = none)
        ⟨fun h c t' hc' ht => by rw [hc] at hc'; cases hc'; cases ht; exact h,
          fun h => h _ t hc rfl⟩
    | some ⟨_, .starting⟩ | some ⟨_, .missed⟩ | some ⟨_, .fetching _⟩ | some ⟨_, .storing _ _⟩
    | some ⟨_, .waiting _⟩ | some ⟨_, .fetchingAlone⟩ | some ⟨_, .storingAlone _⟩ | some ⟨_, .done⟩ =>
      .isTrue fun c t' hc' ht => by rw [hc] at hc'; cases hc'; cases ht
    | none => .isTrue fun c t' hc' => by rw [hc] at hc'; cases hc'
  | .del _ false | .tick _ | .call _ | .evict | .get _ _ | .lock _ _ | .fetched _ _ | .set _ _ =>
    .isTrue trivial

/-- The fetch takes a second; the second caller waits for it. -/
def quickFetch : List Action :=
  [.call { ttlMs := 60000 }, .get 0 .answered, .lock 0 true, .tick 500,
   .call { ttlMs := 60000 }, .get 1 .answered, .lock 1 true, .tick 500,
   .fetched 0 (some true), .set 0 .answered, .del 0 true, .get 1 .answered]

theorem lock_owned_quickFetch :
    EachStep step DelsOwn (.start 0 none) quickFetch ∧
      Always step FetchersApart (.start 0 none) quickFetch := by
  obtain ⟨s, hs⟩ : ∃ s, exec step (.start 0 none) quickFetch = some s :=
    Option.isSome_iff_exists.mp (by decide +kernel)
  exact (lock_owned_iff 0 none quickFetch s hs).mpr (by decide +kernel)

/-- The fetch of the first caller takes six seconds. The second one gets the lock meanwhile, the third
one misses the entry just before it is written, and finds the lock deleted. -/
def slowFetch : List Action :=
  [.call { ttlMs := 60000 }, .get 0 .answered, .lock 0 true, .tick 5500,
   .call { ttlMs := 60000 }, .get 1 .answered, .lock 1 true, .tick 400,
   .call { ttlMs := 60000 }, .get 2 .answered, .tick 100,
   .fetched 0 (some true), .set 0 .answered]

/-- **The first caller deletes the second one's lock, and the third one fetches beside the second, whose
lock would have lasted another four and a half seconds.** -/
theorem foreign_lock_deleted :
    ¬ EachStep step DelsOwn (.start 0 none) (slowFetch ++ [.del 0 true]) ∧
      ¬ Always step FetchersApart (.start 0 none) (slowFetch ++ [.del 0 true, .lock 2 true]) := by
  constructor
  · intro h
    obtain ⟨s, s', howns, hlock, -⟩ := h.read _ _ (List.prefix_refl _) (fun s => s.liveLock)
      (some ⟨1, 10500⟩) (fun _ => ()) () (by decide +kernel) (by decide +kernel)
    exact absurd (howns 0 ⟨1, 10500⟩ rfl hlock) (by decide)
  · intro h
    obtain ⟨s, hapart, hread⟩ := h.read (fun s => (s.clock, s.callers[1]?, s.callers[2]?))
      (6000, some ⟨{ ttlMs := 60000 }, .fetching 5500⟩, some ⟨{ ttlMs := 60000 }, .fetching 6000⟩)
      (by decide +kernel)
    rw [Prod.mk.injEq, Prod.mk.injEq] at hread
    obtain ⟨hclock, hsecond, hthird⟩ := hread
    have := hapart 1 2 5500 10500 6000 11000 (by decide) ⟨_, hsecond, rfl, rfl⟩
      ⟨_, hthird, rfl, rfl⟩ (by decide)
    rw [hclock] at this
    exact absurd this (by decide)

end QuizBackend.Redis.Computing
