import QuizBackend.Lib.Run
import QuizBackend.Lib.Table
import QuizBackend.Lib.Exclusive
import Mathlib.Algebra.Order.Ring.Int

/-!
# Catching up on the external event bus (`common-external-event-bus.ts`)

Every instance that receives an event appends it to a Redis list, a *bucket*, which is named after the
event's own timestamp and expires a window after the last append. An instance that connects reads the
buckets of the last window and dispatches what it finds, *exactly as if it had arrived live*.

An event that nobody received is in no bucket; the bucket the window begins in is not read; and what
is read has been through `JSON.stringify` once more than a live event, whose `Date` it brings back as
a text. The last point spoils every event there is to catch up on.

Instances, messages under way, the two commands of an append and the reads of a replay are
interleaved with the passing of time; Redis answers every command. All instances read the same clock.
The divisions of `getTime()` by a thousand and the bucket size are exact enough for their floor to be
the floor of the quotient.
-/

namespace QuizBackend.Events.CatchUp

open Lib
open Option (bind_eq_some_iff)

/-! ## Configuration -/

structure ReplayConfig where
  bucketSeconds : Int
  windowSeconds : Int
  bucketSeconds_pos : 0 < bucketSeconds
  windowSeconds_pos : 0 < windowSeconds

/-- `parsePositiveInt`, given what `Number(value)` is when it is an integer. -/
def parsePositiveInt (number : Option Int) (fallback : Int) : Int :=
  match number with
  | some parsed => if 0 < parsed then parsed else fallback
  | none => fallback

open ReplayConfig

theorem parsePositiveInt_pos {number : Option Int} {fallback : Int} (h : 0 < fallback) :
    0 < parsePositiveInt number fallback := by
  unfold parsePositiveInt
  split
  · split
    · assumption
    · exact h
  · exact h

def resolveReplayConfig (replayTtlSeconds replayBucketSeconds : Option Int) : ReplayConfig where
  windowSeconds := parsePositiveInt replayTtlSeconds 60
  bucketSeconds := parsePositiveInt replayBucketSeconds 1
  windowSeconds_pos := parsePositiveInt_pos (by decide)
  bucketSeconds_pos := parsePositiveInt_pos (by decide)

/-- `Math.max(1, Math.ceil(windowSeconds / bucketSeconds))`. -/
def ReplayConfig.bucketCount (c : ReplayConfig) : Int :=
  max 1 (-((-c.windowSeconds) / c.bucketSeconds))

/-! ## Events -/

inductive XpSource
  | quizAttempt
  | tournament
  | bonus
  | achievement
  deriving DecidableEq

def XpSource.text : XpSource → String
  | .quizAttempt => "quiz_attempt"
  | .tournament => "tournament"
  | .bonus => "bonus"
  | .achievement => "achievement"

def XpSource.ofText? (text : String) : Option XpSource :=
  [.quizAttempt, .tournament, .bonus, .achievement].find? fun source => source.text = text

/-- What a producer publishes; the timestamp is a `Date`. -/
structure ExternalXpEarnedEvent where
  userId : String
  amount : Int
  source : XpSource
  attemptId : Option String := none
  tournamentId : Option String := none
  categoryId : Option String := none
  rank : Option Int := none
  achievementId : Option String := none
  bonusId : Option String := none
  timestamp : Int
  correlationId : Option String := none
  idempotencyKey : String
  deriving DecidableEq

/-- The text of a date. `toISOString` and `new Date` undo each other, so that a text is kept as the
instant it stands for, if any. -/
abbrev DateText := Option Int

structure SerializedExternalEvent where
  eventType : String
  userId : String
  amount : Int
  source : String
  attemptId : Option String
  tournamentId : Option String
  categoryId : Option String
  rank : Option Int
  achievementId : Option String
  bonusId : Option String
  timestamp : DateText
  correlationId : Option String
  idempotencyKey : Option String

/-- The value of the member `timestamp` in a handler's argument: its type says `Date`. -/
inductive Timestamp
  | date (ms : Int)
  | text (text : DateText)
  deriving DecidableEq

structure ExternalEvent where
  userId : String
  amount : Int
  source : XpSource
  attemptId : Option String
  tournamentId : Option String
  categoryId : Option String
  rank : Option Int
  timestamp : Timestamp
  correlationId : Option String
  idempotencyKey : String
  deriving DecidableEq

def ExternalXpEarnedEvent.payload (e : ExternalXpEarnedEvent) : SerializedExternalEvent :=
  { e with eventType := "external.xp.earned", source := e.source.text, timestamp := some e.timestamp
           idempotencyKey := some e.idempotencyKey }

def parseExternalXpEarnedEvent (parsed : SerializedExternalEvent) : Option ExternalEvent := do
  if parsed.eventType ≠ "external.xp.earned" then none
  let source ← XpSource.ofText? parsed.source
  let timestamp ← parsed.timestamp
  return { parsed with source, timestamp := .date timestamp
                       idempotencyKey := parsed.idempotencyKey.getD "" }

def ExternalXpEarnedEvent.live (e : ExternalXpEarnedEvent) : ExternalEvent :=
  { e with timestamp := .date e.timestamp }

/-- `JSON.parse(JSON.stringify(timestamp))`: a `Date` becomes its text. -/
def Timestamp.viaJson : Timestamp → Timestamp
  | .date ms => .text (some ms)
  | .text t => .text t

def ExternalEvent.viaJson (e : ExternalEvent) : ExternalEvent :=
  { e with timestamp := e.timestamp.viaJson }

/-! ## Buckets -/

/-- The bucket of an instant, `Math.floor(ms / 1000 / bucketSeconds)`. -/
def ReplayConfig.bucketIndex (c : ReplayConfig) (ms : Int) : Int := ms / (1000 * c.bucketSeconds)

def ReplayConfig.buildReplayBucketKey (c : ReplayConfig) (ms : Int) : Int :=
  c.bucketIndex ms * c.bucketSeconds

def ReplayConfig.bucketKeys (c : ReplayConfig) (now : Int) : List Int :=
  let oldest := c.bucketIndex now - c.bucketCount + 1
  (List.range c.bucketCount.toNat).map fun i : Nat => (oldest + (i : Int)) * c.bucketSeconds

structure Bucket where
  key : Int
  events : List ExternalEvent
  expiresAt : Option Int

abbrev Buckets := Table Int Bucket (·.key)

def liveEvents (t : Buckets) (now key : Int) : Option Bucket :=
  (t.find? key).filter fun b => b.expiresAt.all (now < ·)

def lrange (t : Buckets) (now key : Int) : List ExternalEvent :=
  match liveEvents t now key with
  | some bucket => bucket.events
  | none => []

def rpush (t : Buckets) (now key : Int) (event : ExternalEvent) : Buckets :=
  match liveEvents t now key with
  | some bucket => t.upsert { bucket with events := bucket.events ++ [event] }
  | none => t.upsert ⟨key, [event], none⟩

def expire (t : Buckets) (now key ttlMs : Int) : Buckets :=
  match liveEvents t now key with
  | some bucket => t.upsert { bucket with expiresAt := some (now + ttlMs) }
  | none => t

/-! ## Instances -/

structure Instance where
  connected : Bool := false
  inbox : List SerializedExternalEvent := []
  handled : List ExternalEvent := []

structure Append where
  key : Int
  event : ExternalEvent
  pushed : Bool := false

/-- A `replayAndDispatch`: the keys it has to read yet, and what it has read. `missed` is what was
published in the last window while the instance was disconnected. -/
structure Replay where
  inst : Nat
  keys : List Int
  read : List ExternalEvent := []
  missed : List ExternalXpEarnedEvent
  deriving DecidableEq

structure Published where
  event : ExternalXpEarnedEvent
  at_ : Int
  subscribed : List Bool

structure State where
  clock : Int
  buckets : Buckets
  instances : List Instance
  appends : List Append
  replays : List Replay
  published : List Published
  finished : List Replay

def State.start (clock : Int) (instances : Nat) : State :=
  ⟨clock, Table.empty _, List.replicate instances {}, [], [], [], []⟩

def State.missed (c : ReplayConfig) (s : State) (i : Nat) : List ExternalXpEarnedEvent :=
  (s.published.filter fun p =>
    decide (s.clock - 1000 * c.windowSeconds ≤ p.at_) && p.subscribed[i]? == some false).map (·.event)

inductive Action
  | tick (ms : Nat)
  | connect (i : Nat)
  | disconnect (i : Nat)
  | publish (event : ExternalXpEarnedEvent)
  | receive (i : Nat)
  | push (append : Nat)
  | expire (append : Nat)
  | read (replay : Nat)
  | dispatch (replay : Nat)

def connect (c : ReplayConfig) (s : State) (i : Nat) : Option State := do
  let inst ← s.instances[i]?
  if inst.connected then none
  else some { s with
    instances := s.instances.set i { inst with connected := true }
    replays := s.replays ++
      [{ inst := i, keys := c.bucketKeys s.clock, missed := s.missed c i }] }

def disconnect (s : State) (i : Nat) : Option State := do
  let inst ← s.instances[i]?
  if inst.connected then
    some { s with instances := s.instances.set i { inst with connected := false, inbox := [] } }
  else none

def publish (s : State) (event : ExternalXpEarnedEvent) : Option State :=
  if event.idempotencyKey = "" then none
  else some { s with
    instances := s.instances.map fun inst =>
      if inst.connected then { inst with inbox := inst.inbox ++ [event.payload] } else inst
    published := s.published ++ [⟨event, s.clock, s.instances.map (·.connected)⟩] }

def receive (c : ReplayConfig) (s : State) (i : Nat) : Option State := do
  let inst ← s.instances[i]?
  match inst.inbox with
  | [] => none
  | raw :: inbox =>
    match parseExternalXpEarnedEvent raw with
    | none => some { s with instances := s.instances.set i { inst with inbox } }
    | some event =>
      match event.timestamp with
      | .date ms =>
        some { s with
          instances := s.instances.set i { inst with inbox, handled := inst.handled ++ [event] }
          appends := s.appends ++ [{ key := c.buildReplayBucketKey ms, event }] }
      | .text _ => none

def step (c : ReplayConfig) (s : State) : Action → Option State
  | .tick ms => some { s with clock := s.clock + ms }
  | .connect i => connect c s i
  | .disconnect i => disconnect s i
  | .publish event => publish s event
  | .receive i => receive c s i
  | .push k => do
    let a ← s.appends[k]?
    if a.pushed then none
    else some { s with
      buckets := rpush s.buckets s.clock a.key a.event.viaJson
      appends := s.appends.set k { a with pushed := true } }
  | .expire k => do
    let a ← s.appends[k]?
    if a.pushed then
      some { s with
        buckets := expire s.buckets s.clock a.key (1000 * c.windowSeconds)
        appends := s.appends.eraseIdx k }
    else none
  | .read k => do
    let r ← s.replays[k]?
    match r.keys with
    | [] => none
    | key :: keys =>
      some { s with
        replays := s.replays.set k { r with keys, read := r.read ++ lrange s.buckets s.clock key } }
  | .dispatch k => do
    let r ← s.replays[k]?
    let inst ← s.instances[r.inst]?
    if r.keys = [] then
      some { s with
        instances := s.instances.set r.inst { inst with handled := inst.handled ++ r.read }
        replays := s.replays.eraseIdx k
        finished := s.finished ++ [r] }
    else none

/-! ## Completeness -/

/-- The handlers have got every event that was missed, as a live delivery would have brought it. -/
def Replay.CatchesUp (r : Replay) : Prop := ∀ e ∈ r.missed, e.live ∈ r.read

/-! ## What the buckets hold -/

def ExternalEvent.IsText (e : ExternalEvent) : Prop := ∃ t, e.timestamp = .text t

theorem isText_viaJson (e : ExternalEvent) : e.viaJson.IsText := by
  cases h : e.timestamp with
  | date ms => exact ⟨some ms, by rw [ExternalEvent.viaJson, h]; rfl⟩
  | text t => exact ⟨t, by rw [ExternalEvent.viaJson, h]; rfl⟩

theorem not_isText_live (e : ExternalXpEarnedEvent) : ¬ e.live.IsText := by
  rintro ⟨t, ht⟩
  cases ht

/-- Every stored event has its time as a text. -/
def AllText (t : Buckets) : Prop := ∀ b ∈ t.rows, ∀ e ∈ b.events, e.IsText

variable {t : Buckets}

theorem AllText.liveEvents {now key : Int} {b : Bucket} (h : AllText t)
    (hb : liveEvents t now key = some b) : ∀ e ∈ b.events, e.IsText :=
  h b (Table.mem_of_find? (Option.filter_eq_some_iff.mp hb).1)

theorem AllText.upsert (h : AllText t) {b : Bucket} (hb : ∀ e ∈ b.events, e.IsText) :
    AllText (t.upsert b) := by
  intro x hx
  rcases Table.mem_upsert.mp hx with rfl | ⟨hx, -⟩
  · exact hb
  · exact h x hx

theorem AllText.lrange (h : AllText t) (now key : Int) : ∀ e ∈ lrange t now key, e.IsText := by
  unfold CatchUp.lrange
  split
  · exact h.liveEvents ‹_›
  · intro e he
    cases he

theorem AllText.rpush (h : AllText t) (now key : Int) {event : ExternalEvent}
    (hevent : event.IsText) : AllText (rpush t now key event) := by
  unfold CatchUp.rpush
  split
  · rename_i b hb
    refine h.upsert ?_
    intro e he
    rcases List.mem_append.mp he with he | he
    · exact h.liveEvents hb e he
    · rw [List.mem_singleton.mp he]
      exact hevent
  · refine h.upsert ?_
    intro e he
    rw [List.mem_singleton.mp he]
    exact hevent

theorem AllText.expire (h : AllText t) (now key ttlMs : Int) :
    AllText (expire t now key ttlMs) := by
  unfold CatchUp.expire
  split
  · rename_i b hb
    have hevents : ∀ e ∈ b.events, e.IsText := h.liveEvents hb
    exact h.upsert hevents
  · exact h

/-! ## Which buckets are read -/

theorem mem_bucketKeys_iff (c : ReplayConfig) (ms now : Int) :
    c.buildReplayBucketKey ms ∈ c.bucketKeys now ↔
      c.bucketIndex now - c.bucketCount < c.bucketIndex ms ∧ c.bucketIndex ms ≤ c.bucketIndex now := by
  have hpos := c.bucketSeconds_pos
  simp only [bucketKeys, buildReplayBucketKey, List.mem_map,
    List.mem_range]
  constructor
  · rintro ⟨i, hi, hkey⟩
    have hindex := Int.eq_of_mul_eq_mul_right (Int.ne_of_gt hpos) hkey
    omega
  · rintro ⟨hold, hnew⟩
    refine ⟨(c.bucketIndex ms - (c.bucketIndex now - c.bucketCount + 1)).toNat, by omega, ?_⟩
    rw [Int.toNat_of_nonneg (by omega)]
    congr 1
    omega

/-- **The window is never read to its end**: when it is a whole number of buckets, as it is by
default, the bucket in which it begins is left out, whatever the time. -/
theorem window_start_not_read (c : ReplayConfig) (now : Int)
    (h : c.bucketSeconds ∣ c.windowSeconds) :
    c.buildReplayBucketKey (now - 1000 * c.windowSeconds) ∉ c.bucketKeys now := by
  obtain ⟨k, hk⟩ := h
  have hpos := c.bucketSeconds_pos
  have hk1 : 1 ≤ k := by
    have hw := c.windowSeconds_pos
    rw [hk] at hw
    exact pos_of_mul_pos_right hw hpos.le
  have hcount : c.bucketCount = k := by
    rw [bucketCount, hk, ← Int.mul_neg, Int.mul_ediv_cancel_left _ (Int.ne_of_gt hpos),
      Int.neg_neg, Int.max_eq_right hk1]
  have hindex : c.bucketIndex (now - 1000 * c.windowSeconds) = c.bucketIndex now - k := by
    rw [bucketIndex, bucketIndex, hk,
      show now - 1000 * (c.bucketSeconds * k) = now + (1000 * c.bucketSeconds) * (-k) by
        rw [Int.mul_neg, Int.mul_assoc, Int.sub_eq_add_neg],
      Int.add_mul_ediv_left _ _ (by omega)]
    omega
  rw [mem_bucketKeys_iff, hcount, hindex]
  omega

/-! ## Runs -/

structure Invariant (s : State) : Prop where
  buckets : AllText s.buckets
  replays : ∀ r ∈ s.replays, ∀ e ∈ r.read, e.IsText
  finished : ∀ r ∈ s.finished, ∀ e ∈ r.read, e.IsText

theorem Invariant.start (clock : Int) (instances : Nat) : Invariant (.start clock instances) where
  buckets := nofun
  replays _ h := absurd h List.not_mem_nil
  finished _ h := absurd h List.not_mem_nil

theorem Invariant.step {c : ReplayConfig} {s s' : State} {a : Action} (h : Invariant s)
    (hstep : step c s a = some s') : Invariant s' := by
  cases a with
  | tick ms =>
    cases hstep
    exact ⟨h.buckets, h.replays, h.finished⟩
  | connect i =>
    obtain ⟨inst, -, hstep⟩ := bind_eq_some_iff.mp hstep
    split at hstep
    · cases hstep
    · cases hstep
      refine ⟨h.buckets, forall_mem_join h.replays ?_, h.finished⟩
      intro e he
      cases he
  | disconnect i =>
    obtain ⟨inst, -, hstep⟩ := bind_eq_some_iff.mp hstep
    split at hstep
    · cases hstep
      exact ⟨h.buckets, h.replays, h.finished⟩
    · cases hstep
  | publish event =>
    change publish s event = some s' at hstep
    unfold publish at hstep
    split at hstep
    · cases hstep
    · cases hstep
      exact ⟨h.buckets, h.replays, h.finished⟩
  | receive i =>
    obtain ⟨inst, -, hstep⟩ := bind_eq_some_iff.mp hstep
    split at hstep
    · cases hstep
    · split at hstep
      · cases hstep
        exact ⟨h.buckets, h.replays, h.finished⟩
      · split at hstep
        · cases hstep
          exact ⟨h.buckets, h.replays, h.finished⟩
        · cases hstep
  | push k =>
    obtain ⟨a, -, hstep⟩ := bind_eq_some_iff.mp hstep
    split at hstep
    · cases hstep
    · cases hstep
      exact ⟨h.buckets.rpush _ _ (isText_viaJson _), h.replays, h.finished⟩
  | expire k =>
    obtain ⟨a, -, hstep⟩ := bind_eq_some_iff.mp hstep
    split at hstep
    · cases hstep
      exact ⟨h.buckets.expire _ _ _, h.replays, h.finished⟩
    · cases hstep
  | read k =>
    obtain ⟨r, hr, hstep⟩ := bind_eq_some_iff.mp hstep
    split at hstep
    · cases hstep
    · cases hstep
      refine ⟨h.buckets, forall_mem_set h.replays ?_, h.finished⟩
      intro e he
      rcases List.mem_append.mp he with he | he
      · exact h.replays r (List.mem_of_getElem? hr) e he
      · exact h.buckets.lrange _ _ e he
  | dispatch k =>
    obtain ⟨r, hr, hstep⟩ := bind_eq_some_iff.mp hstep
    obtain ⟨inst, -, hstep⟩ := bind_eq_some_iff.mp hstep
    split at hstep
    · cases hstep
      refine ⟨h.buckets, fun x hx => h.replays x (List.mem_of_mem_eraseIdx hx),
        forall_mem_join h.finished ?_⟩
      exact h.replays r (List.mem_of_getElem? hr)
    · cases hstep

/-- **A replay catches up exactly when there was nothing to catch up on.** -/
theorem catchesUp_iff (c : ReplayConfig) (clock : Int) (instances : Nat) (as : List Action)
    (s : State) (h : exec (step c) (.start clock instances) as = some s) :
    ∀ r ∈ s.finished, r.CatchesUp ↔ r.missed = [] := by
  have hinv : Invariant s :=
    exec_invariant (fun _ _ _ hi hstep => hi.step hstep) h (Invariant.start clock instances)
  intro r hr
  constructor
  · intro hcatch
    cases hmissed : r.missed with
    | nil => rfl
    | cons e es =>
      have hread := hcatch e (hmissed ▸ List.mem_cons_self)
      exact absurd (hinv.finished r hr _ hread) (not_isText_live e)
  · intro hmissed e he
    rw [hmissed] at he
    cases he

/-! Three replays of a window of five seconds. -/

def fiveSeconds : ReplayConfig := resolveReplayConfig (some 5) none

theorem window_start_not_read_fiveSeconds :
    fiveSeconds.buildReplayBucketKey (10000 - 1000 * fiveSeconds.windowSeconds) ∉
      fiveSeconds.bucketKeys 10000 :=
  window_start_not_read fiveSeconds 10000 (by decide)

def xpAt (ms : Int) : ExternalXpEarnedEvent :=
  { userId := "u", amount := 50, source := .quizAttempt, timestamp := ms, idempotencyKey := "k" }

def readAll : List Action := [.read 0, .read 0, .read 0, .read 0, .read 0, .dispatch 0]

/-- The other instance receives the event and appends it, two seconds before the first one comes
back. -/
def appendedBefore : List Action :=
  [.connect 1, .read 0, .read 0, .read 0, .read 0, .read 0, .dispatch 0,
   .publish (xpAt 5000), .receive 1, .push 0, .expire 0, .tick 2000, .connect 0] ++ readAll

def appendedAtTheBorder : List Action :=
  [Action.connect 1, .read 0, .read 0, .read 0, .read 0, .read 0, .dispatch 0, .tick 700,
   .publish (xpAt 5700), .receive 1, .push 0, .expire 0, .tick 4500, .connect 0] ++ readAll

def receivedByNobody : List Action :=
  [.publish (xpAt 5000), .tick 2000, .connect 0] ++ readAll

/-- What an instance missed and what its replay, the last one of the run, handed over. -/
def caughtUp (as : List Action) : Option (List ExternalXpEarnedEvent × List ExternalEvent) := do
  let s ← exec (step fiveSeconds) (.start 5000 2) as
  let r ← s.finished.getLast?
  return (r.missed, r.read)

theorem catchesUp_nothingMissed :
    ∃ s r, exec (step fiveSeconds) (.start 5000 2) ([.connect 0] ++ readAll) = some s ∧
      r ∈ s.finished ∧ r.missed = [] ∧ r.CatchesUp := by
  obtain ⟨s, hs, hlast⟩ : ∃ s, exec (step fiveSeconds) (.start 5000 2) ([.connect 0] ++ readAll)
      = some s ∧ s.finished = [⟨0, [], [], []⟩] := Option.map_eq_some_iff.mp (by decide +kernel)
  have hr : (⟨0, [], [], []⟩ : Replay) ∈ s.finished := hlast ▸ List.mem_singleton_self _
  exact ⟨s, _, hs, hr, rfl, (catchesUp_iff fiveSeconds 5000 2 _ s hs _ hr).mpr rfl⟩

/-- **The event comes back with a text for a timestamp, or it does not come back at all.** -/
theorem missed_events_lost :
    (caughtUp appendedBefore = some ([xpAt 5000], [(xpAt 5000).live.viaJson]) ∧
        (xpAt 5000).live.viaJson ≠ (xpAt 5000).live) ∧
      caughtUp appendedAtTheBorder = some ([xpAt 5700], []) ∧
      caughtUp receivedByNobody = some ([xpAt 5000], []) ∧
      ¬ ∀ as s, exec (step fiveSeconds) (.start 5000 2) as = some s →
        ∀ r ∈ s.finished, r.CatchesUp := by
  refine ⟨⟨by decide +kernel, by decide⟩, by decide +kernel, by decide +kernel, ?_⟩
  intro h
  obtain ⟨s, hs, hlast⟩ : ∃ s, exec (step fiveSeconds) (.start 5000 2) receivedByNobody = some s ∧
      s.finished = [⟨0, [], [], [xpAt 5000]⟩] := Option.map_eq_some_iff.mp (by decide +kernel)
  have hcatch := h _ s hs _ (hlast ▸ List.mem_singleton_self _)
  cases hcatch (xpAt 5000) (List.mem_singleton_self _)

end QuizBackend.Events.CatchUp
