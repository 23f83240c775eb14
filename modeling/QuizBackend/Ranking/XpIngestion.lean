import QuizBackend.Ranking.Xp
import QuizBackend.Attempt.Tables
import QuizBackend.Outbox.Isolation
import QuizBackend.Lib.Exclusive
import QuizBackend.Lib.Run

/-!
# XP ingestion (`xp-ingestion.service.ts`)

The XP of a completed attempt is announced twice: by an event inside the process, and by an outbox
row that the attempt processor publishes on the external bus. Both end in `processXpEvent`, which
claims the idempotency key in Redis, runs one transaction (counters, outbox row, recalculation
queue), and gives the claim back if the transaction throws. Both callers catch what it throws.

Claim, transaction and release are separate steps here, and everything else of the system may happen
between them: other deliveries, completions of attempts, and the nine outbox processors with their
polls, dispatches and write-backs (`Outbox.System`). A Redis command is answered, or it throws (and
may have been executed all the same), or the breaker answers for it with the fallback value. The
claim has no expiry in this model, `bumpAllPeriods` catches its own errors, and the recalculation
queue is modelled elsewhere.

`step_cases` says what a step can do; `credits` records the transactions that have committed, and
`exec_allTimeXp` that the counter of a user grows by what they add.
-/

namespace QuizBackend.Ranking

open Lib Outbox

/-! ## The event -/

structure ExternalXpEarnedEvent where
  userId : String
  amount : Int
  idempotencyKey : String
  deriving DecidableEq

inductive XpIngestSource where
  | inProc | outbox | manual
  deriving DecidableEq

def validateXpEvent (event : ExternalXpEarnedEvent) : Except String Unit :=
  if event.userId = "" ∨ event.amount ≤ 0 then
    .error "Invalid XP event: Invalid event structure"
  else if event.idempotencyKey = "" then
    .error "Invalid XP event: idempotencyKey is required"
  else .ok ()

def typeofField (row : OutboxRow) (field : String) : String :=
  match row.field field with
  | none => "undefined"
  | some .null => "object"
  | some (.bool _) => "boolean"
  | some (.num _) => "number"
  | some (.str _) => "string"
  | some (.raw _) => "object"

def payloadInvalid {α : Type} (row : OutboxRow) (field expected : String) : Except Thrown α :=
  .error (.payloadValidation
    s!"outbox payload invalid at {field}: expected {expected}, got {typeofField row field}")

section

variable (row : OutboxRow)

section

variable (field : String)

def requireString : Except Thrown String :=
  match row.field field with
  | some (.str s) => if s = "" then payloadInvalid row field "non-empty string" else .ok s
  | _ => payloadInvalid row field "non-empty string"

def requireNumber : Except Thrown Int :=
  match row.field field with
  | some (.num n) => .ok n
  | _ => payloadInvalid row field "finite number"

def optionalString : Except Thrown Unit :=
  match row.field field with
  | none => .ok ()
  | some (.str _) => .ok ()
  | some _ => payloadInvalid row field "string when present"

/-- `requireString` of a timestamp, which is a number here. -/
def requireTimestamp : Except Thrown Int :=
  match row.field field with
  | some (.num n) => .ok n
  | _ => payloadInvalid row field "non-empty string"

end

/-- `parseAttemptXpOutboxPayload`, and the event `dispatch` makes of the payload. -/
def parseAttemptXpOutboxPayload : Except Thrown ExternalXpEarnedEvent := do
  let userId ← requireString row "userId"
  let _ ← requireString row "attemptId"
  let amount ← requireNumber row "amount"
  let idempotencyKey ← requireString row "idempotencyKey"
  optionalString row "correlationId"
  let _ ← requireTimestamp row "timestamp"
  return ⟨userId, amount, idempotencyKey⟩

end

def attemptXpEvent (userId attemptId : Uuid) (xpEarned : Int) : ExternalXpEarnedEvent :=
  ⟨userId.text, xpEarned, Attempt.xpIdempotencyKey userId attemptId⟩

/-! ## The claim -/

/-- How a Redis command ends: it is answered, it throws (executed or not), or the circuit is open
and the breaker answers with the fallback. -/
inductive RedisReply where
  | answered
  | threw (executed : Bool)
  | shortCircuited
  deriving DecidableEq

def setIfNotExists (keys : List String) (key : String) : RedisReply → Except String Bool × List String
  | .answered => if key ∈ keys then (.ok false, keys) else (.ok true, key :: keys)
  | .threw executed =>
    (.error "redis command failed", if executed ∧ key ∉ keys then key :: keys else keys)
  | .shortCircuited => (.ok false, keys)

def del (keys : List String) (key : String) : RedisReply → Except String Bool × List String
  | .answered => (.ok (key ∈ keys), keys.filter (· ≠ key))
  | .threw executed =>
    (.error "redis command failed", if executed then keys.filter (· ≠ key) else keys)
  | .shortCircuited => (.ok false, keys)

def claimKey (idempotencyKey : String) : String := "xp:processed:" ++ idempotencyKey

def tryClaimXp (keys : List String) (idempotencyKey : String) (reply : RedisReply) :
    Bool × List String :=
  match setIfNotExists keys (claimKey idempotencyKey) reply with
  | (.ok claimed, keys') => (claimed, keys')
  | (.error _, keys') => (true, keys')

/-- `releaseXp`; what `del` throws is logged. -/
def releaseXp (keys : List String) (idempotencyKey : String) (reply : RedisReply) : List String :=
  (del keys (claimKey idempotencyKey) reply).2

theorem claimKey_inj {a b : String} : claimKey a = claimKey b ↔ a = b := by
  constructor
  · intro h
    have hlist := congrArg String.toList h
    simp only [claimKey, String.toList_append] at hlist
    exact String.toList_injective (List.append_cancel_left hlist)
  · rintro rfl
    rfl

/-! ## The transaction -/

structure XpDrawn where
  eventId : String
  clock : Int

/-- The `xp.added` row, with the totals the counters have after the event. -/
def xpAddedEvent (event : ExternalXpEarnedEvent) (updatedRanking : UserRankingRow) (now : Int)
    (drawn : XpDrawn) : NewEvent :=
  { eventId := drawn.eventId, aggregateType := "ranking", eventType := "xp.added",
    payload :=
      [("eventType", .str "xp.added"), ("userId", .str event.userId), ("amount", .num event.amount),
       ("newAllTimeXp", .num updatedRanking.allTimeXp),
       ("newWeeklyXp", .num updatedRanking.weeklyXp),
       ("newMonthlyXp", .num updatedRanking.monthlyXp),
       ("newDailyXp", .num updatedRanking.dailyXp), ("timestamp", .num now)],
    createdAt := now, nextAttemptAt := drawn.clock,
    idempotencyKey := some event.idempotencyKey, correlationId := none }

/-- The transaction of `applyXpEvent`: the counters, and the outbox row through
`scheduleRankingEvent`. `fails` is a statement of it that the database refuses. -/
def applyXpEvent (ranking : UserRanking) (events : OutboxEvents) (event : ExternalXpEarnedEvent)
    (now : Int) (drawn : XpDrawn) (fails : Bool) : Except String (UserRanking × OutboxEvents) := do
  if fails then throw "database error"
  let (updatedRanking, ranking') ← updateXpCore ranking ⟨event.userId, event.amount, now⟩
  return (ranking', insertEvent events (xpAddedEvent event updatedRanking now drawn))

/-! ## The system -/

inductive XpPhase where
  | received | claimed | failed
  deriving DecidableEq

structure XpDelivery where
  event : ExternalXpEarnedEvent
  source : XpIngestSource
  phase : XpPhase
  deriving DecidableEq

/-- The tables, the claims in Redis, the calls under way, and the events whose transactions have
committed. -/
structure XpSystem where
  ranking : UserRanking
  outbox : Outbox.System
  claims : List String
  deliveries : List XpDelivery
  credits : List ExternalXpEarnedEvent

open XpSystem

def XpSystem.start : XpSystem := ⟨Table.empty _, System.start (Table.empty _), [], [], []⟩

/-- The steps: an attempt is completed, a producer or processor of the outbox moves (a dispatch of
the attempt processor reaches `subscribers` instances), `processXpEvent` is called, and the three
steps of the `i`-th call. -/
inductive XpAction where
  | complete (d : Attempt.Drawn) (p : Attempt.CompletionParams)
  | outbox (a : Outbox.Action) (subscribers : Nat)
  | deliver (event : ExternalXpEarnedEvent) (source : XpIngestSource)
  | claim (i : Nat) (reply : RedisReply)
  | transact (i : Nat) (now : Int) (drawn : XpDrawn) (fails : Bool)
  | release (i : Nat) (reply : RedisReply)

/-- `processXpEvent` is called `n` times; an event that its checks reject goes no further. -/
def XpSystem.receive (s : XpSystem) (event : ExternalXpEarnedEvent) (source : XpIngestSource)
    (n : Nat) : XpSystem :=
  match validateXpEvent event with
  | .ok () => { s with deliveries := s.deliveries ++ List.replicate n ⟨event, source, .received⟩ }
  | .error _ => s

def isXpRow (row : OutboxRow) : Bool := row.eventType == "attempt.xp_to_publish"

/-- What the attempt processor makes of the row of a job; no other processor publishes it. -/
def XpSystem.published (s : XpSystem) (i : Nat) : Option (Except Thrown ExternalXpEarnedEvent) :=
  match s.outbox.jobs[i]? with
  | some job =>
    if job.processor = .attempt then some (parseAttemptXpOutboxPayload job.row) else none
  | none => none

def XpSystem.outboxStep (config : OutboxConfig) (s : XpSystem) (subscribers : Nat) :
    Outbox.Action → Option XpSystem
  | .write e =>
    -- only a completion writes an `attempt.xp_to_publish`
    if e.eventType = "attempt.xp_to_publish" then none
    else (s.outbox.step config (.write e)).map fun outbox => { s with outbox }
  | .dispatch i out at_ =>
    match s.published i with
    | some (.ok event) =>
      (s.outbox.step config (.dispatch i out at_)).map fun outbox =>
        { s with outbox }.receive event .outbox subscribers
    | some (.error e) =>
      (s.outbox.step config (.dispatch i (.error e) at_)).map fun outbox => { s with outbox }
    | none => (s.outbox.step config (.dispatch i out at_)).map fun outbox => { s with outbox }
  | .select p now => (s.outbox.step config (.select p now)).map fun outbox => { s with outbox }
  | .settle i at_ => (s.outbox.step config (.settle i at_)).map fun outbox => { s with outbox }

def XpSystem.step (config : OutboxConfig) (s : XpSystem) : XpAction → Option XpSystem
  | .complete d p =>
    if ∀ xp ∈ p.xpOutbox, xp.idempotencyKey = Attempt.xpIdempotencyKey p.userId p.attemptId then
      some { s with
        outbox := { s.outbox with events := Attempt.publishXp s.outbox.events d p } }
    else none
  | .outbox a subscribers => s.outboxStep config subscribers a
  | .deliver event source => some (s.receive event source 1)
  | .claim i reply =>
    match s.deliveries[i]? with
    | some d =>
      if d.phase = .received then
        let (claimed, claims) := tryClaimXp s.claims d.event.idempotencyKey reply
        some { s with
          claims
          deliveries := if claimed then s.deliveries.set i { d with phase := .claimed }
            else s.deliveries.eraseIdx i }
      else none
    | none => none
  | .transact i now drawn fails =>
    match s.deliveries[i]? with
    | some d =>
      if d.phase = .claimed ∧ s.outbox.events.find? drawn.eventId = none then
        match applyXpEvent s.ranking s.outbox.events d.event now drawn fails with
        | .ok (ranking, events) =>
          some { s with
            ranking, outbox := { s.outbox with events }, deliveries := s.deliveries.eraseIdx i,
            credits := s.credits ++ [d.event] }
        | .error _ => some { s with deliveries := s.deliveries.set i { d with phase := .failed } }
      else none
    | none => none
  | .release i reply =>
    match s.deliveries[i]? with
    | some d =>
      if d.phase = .failed then
        some { s with
          claims := releaseXp s.claims d.event.idempotencyKey reply
          deliveries := s.deliveries.eraseIdx i }
      else none
    | none => none

/-! ## What a step does -/

def XpAction.Background : XpAction → Prop
  | .complete .. => True
  | .outbox .. => True
  | .deliver .. => True
  | _ => False

structure XpSystem.Joined (s s' : XpSystem) : Prop where
  ranking : s'.ranking = s.ranking
  claims : s'.claims = s.claims
  credits : s'.credits = s.credits
  deliveries : ∃ added, s'.deliveries = s.deliveries ++ added ∧ ∀ d ∈ added, d.phase = .received

theorem XpSystem.joined_of_outbox (s : XpSystem) (outbox : Outbox.System) :
    s.Joined { s with outbox } :=
  ⟨rfl, rfl, rfl, [], (List.append_nil _).symm, fun _ h => absurd h List.not_mem_nil⟩

theorem XpSystem.receive_cases (s : XpSystem) (event : ExternalXpEarnedEvent)
    (source : XpIngestSource) (n : Nat) :
    (validateXpEvent event = .ok () ∧ s.receive event source n
      = { s with deliveries := s.deliveries ++ List.replicate n ⟨event, source, .received⟩ }) ∨
    s.receive event source n = s := by
  unfold receive
  cases h : validateXpEvent event with
  | error e => exact .inr rfl
  | ok u => exact .inl ⟨rfl, rfl⟩

theorem XpSystem.joined_receive (s : XpSystem) (event : ExternalXpEarnedEvent)
    (source : XpIngestSource) (n : Nat) : s.Joined (s.receive event source n) := by
  rcases s.receive_cases event source n with ⟨-, h⟩ | h
  · rw [h]
    refine ⟨rfl, rfl, rfl, _, rfl, ?_⟩
    intro d hd
    rw [List.eq_of_mem_replicate hd]
  · rw [h]
    exact ⟨rfl, rfl, rfl, [], (List.append_nil _).symm, fun _ h => absurd h List.not_mem_nil⟩

/-- What a step of the outbox does: the outbox moves, and what the attempt processor publishes is
received. -/
theorem XpSystem.outboxStep_cases {config : OutboxConfig} {s s' : XpSystem} {n : Nat}
    {a : Outbox.Action} (h : s.outboxStep config n a = some s') :
    (∃ outbox, s' = { s with outbox } ∧ ((∃ e, a = .write e ∧ e.eventType ≠ "attempt.xp_to_publish"
        ∧ s.outbox.step config a = some outbox) ∨
      (∃ p now, a = .select p now ∧ s.outbox.step config a = some outbox) ∨
      (∃ i at_, a = .settle i at_ ∧ s.outbox.step config a = some outbox) ∨
      (∃ i out at_ e, a = .dispatch i out at_ ∧ s.published i = some (.error e) ∧
        s.outbox.step config (.dispatch i (.error e) at_) = some outbox) ∨
      (∃ i out at_, a = .dispatch i out at_ ∧ s.published i = none ∧
        s.outbox.step config a = some outbox))) ∨
    (∃ i out at_ event outbox, a = .dispatch i out at_ ∧ s.published i = some (.ok event) ∧
      s.outbox.step config a = some outbox ∧
      s' = { s with outbox }.receive event .outbox n) := by
  cases a with
  | write e =>
    simp only [outboxStep] at h
    split at h
    · cases h
    · next hne =>
      obtain ⟨outbox, hstep, rfl⟩ := Option.map_eq_some_iff.mp h
      exact .inl ⟨outbox, rfl, .inl ⟨e, rfl, hne, hstep⟩⟩
  | select p now =>
    simp only [outboxStep] at h
    obtain ⟨outbox, hstep, rfl⟩ := Option.map_eq_some_iff.mp h
    exact .inl ⟨outbox, rfl, .inr (.inl ⟨p, now, rfl, hstep⟩)⟩
  | settle i at_ =>
    simp only [outboxStep] at h
    obtain ⟨outbox, hstep, rfl⟩ := Option.map_eq_some_iff.mp h
    exact .inl ⟨outbox, rfl, .inr (.inr (.inl ⟨i, at_, rfl, hstep⟩))⟩
  | dispatch i out at_ =>
    simp only [outboxStep] at h
    split at h
    · next event hpub =>
      obtain ⟨outbox, hstep, rfl⟩ := Option.map_eq_some_iff.mp h
      exact .inr ⟨i, out, at_, event, outbox, rfl, hpub, hstep, rfl⟩
    · next e hpub =>
      obtain ⟨outbox, hstep, rfl⟩ := Option.map_eq_some_iff.mp h
      exact .inl ⟨outbox, rfl, .inr (.inr (.inr (.inl ⟨i, out, at_, e, rfl, hpub, hstep⟩)))⟩
    · next hpub =>
      obtain ⟨outbox, hstep, rfl⟩ := Option.map_eq_some_iff.mp h
      exact .inl ⟨outbox, rfl, .inr (.inr (.inr (.inr ⟨i, out, at_, rfl, hpub, hstep⟩)))⟩

/-- **What a step can do** to the calls, the claims and the counters. -/
theorem XpSystem.step_cases {config : OutboxConfig} {s s' : XpSystem} {a : XpAction}
    (h : s.step config a = some s') :
    (a.Background ∧ s.Joined s') ∨
    (∃ i reply d, a = .claim i reply ∧ s.deliveries[i]? = some d ∧ d.phase = .received ∧
      s' = { s with
        claims := (tryClaimXp s.claims d.event.idempotencyKey reply).2
        deliveries := if (tryClaimXp s.claims d.event.idempotencyKey reply).1
          then s.deliveries.set i { d with phase := .claimed } else s.deliveries.eraseIdx i }) ∨
    (∃ i now drawn fails d, a = .transact i now drawn fails ∧ s.deliveries[i]? = some d ∧
      d.phase = .claimed ∧ s.outbox.events.find? drawn.eventId = none ∧
      ((∃ ranking events,
        applyXpEvent s.ranking s.outbox.events d.event now drawn fails = .ok (ranking, events) ∧
        s' = { s with
          ranking, outbox := { s.outbox with events }, deliveries := s.deliveries.eraseIdx i,
          credits := s.credits ++ [d.event] }) ∨
      (∃ e, applyXpEvent s.ranking s.outbox.events d.event now drawn fails = .error e ∧
        s' = { s with deliveries := s.deliveries.set i { d with phase := .failed } }))) ∨
    (∃ i reply d, a = .release i reply ∧ s.deliveries[i]? = some d ∧ d.phase = .failed ∧
      s' = { s with
        claims := releaseXp s.claims d.event.idempotencyKey reply
        deliveries := s.deliveries.eraseIdx i }) := by
  cases a with
  | complete d p =>
    simp only [step] at h
    split at h
    · rw [← Option.some.inj h]
      exact .inl ⟨trivial, s.joined_of_outbox _⟩
    · cases h
  | outbox a n =>
    refine .inl ⟨trivial, ?_⟩
    rcases outboxStep_cases h with ⟨outbox, rfl, -⟩ | ⟨_, _, _, event, outbox, -, -, -, rfl⟩
    · exact s.joined_of_outbox outbox
    · have hjoined := joined_receive { s with outbox } event .outbox n
      exact ⟨hjoined.ranking, hjoined.claims, hjoined.credits, hjoined.deliveries⟩
  | deliver event source =>
    rw [← Option.some.inj h]
    exact .inl ⟨trivial, s.joined_receive event source 1⟩
  | claim i reply =>
    simp only [step] at h
    split at h
    · next d hd =>
      split at h
      · next hphase =>
        exact .inr (.inl ⟨i, reply, d, rfl, hd, hphase, (Option.some.inj h).symm⟩)
      · cases h
    · cases h
  | transact i now drawn fails =>
    refine .inr (.inr (.inl ?_))
    simp only [step] at h
    split at h
    · next d hd =>
      split at h
      · next hready =>
        refine ⟨i, now, drawn, fails, d, rfl, hd, hready.1, hready.2, ?_⟩
        split at h
        · next ranking events happly =>
          exact .inl ⟨ranking, events, happly, (Option.some.inj h).symm⟩
        · next e happly => exact .inr ⟨e, happly, (Option.some.inj h).symm⟩
      · cases h
    · cases h
  | release i reply =>
    simp only [step] at h
    split at h
    · next d hd =>
      split at h
      · next hphase =>
        exact .inr (.inr (.inr ⟨i, reply, d, rfl, hd, hphase, (Option.some.inj h).symm⟩))
      · cases h
    · cases h

/-! ## The counter and the credits -/

def allTimeXp (t : UserRanking) (userId : String) : Int :=
  ((t.find? userId).map (·.allTimeXp)).getD 0

def creditedXp (credits : List ExternalXpEarnedEvent) (userId : String) : Int :=
  ((credits.filter fun event => event.userId = userId).map (·.amount)).sum

theorem creditedXp_append (credits : List ExternalXpEarnedEvent) (event : ExternalXpEarnedEvent)
    (userId : String) : creditedXp (credits ++ [event]) userId
      = creditedXp credits userId + if event.userId = userId then event.amount else 0 := by
  unfold creditedXp
  rw [List.filter_append, List.map_append, List.sum_append]
  by_cases h : event.userId = userId
  · simp [h]
  · simp [h]

theorem updateXpCore_ok {t t' : UserRanking} {e : XpEvent} {row : UserRankingRow}
    (h : updateXpCore t e = .ok (row, t')) :
    t'.find? e.userId = some row ∧ xpStep t e = some t' := by
  have hstep : xpStep t e = some t' := by
    rw [xpStep, h]
  refine ⟨?_, hstep⟩
  simp only [updateXpCore] at h
  split at h
  · cases h
  · next old hold =>
    split at h
    · cases h
    · simp only [Except.ok.injEq, Prod.mk.injEq] at h
      obtain ⟨rfl, rfl⟩ := h
      exact Table.find?_modify_self hold

theorem allTimeXp_xpStep {t t' : UserRanking} {e : XpEvent} (h : xpStep t e = some t')
    (u : String) : allTimeXp t' u = allTimeXp t u + if e.userId = u then e.amount else 0 := by
  have hspec := xpStep_spec t e
  split at hspec
  · obtain ⟨t₁, ht₁, hself, hframe⟩ := hspec
    rw [h, Option.some.injEq] at ht₁
    subst ht₁
    unfold allTimeXp
    by_cases hu : e.userId = u
    · subst hu
      have hbefore : (rowBefore t e).allTimeXp = allTimeXp t e.userId := by
        unfold rowBefore allTimeXp
        cases t.find? e.userId <;> rfl
      rw [hself, if_pos rfl]
      show (rowBefore t e).allTimeXp + e.amount = _
      rw [hbefore]
      rfl
    · rw [hframe u (Ne.symm hu), if_neg hu, Int.add_zero]
  · rw [hspec] at h
    cases h

theorem applyXpEvent_ok {ranking ranking' : UserRanking} {events events' : OutboxEvents}
    {event : ExternalXpEarnedEvent} {now : Int} {drawn : XpDrawn} {fails : Bool}
    (h : applyXpEvent ranking events event now drawn fails = .ok (ranking', events')) :
    ∃ row, ranking'.find? event.userId = some row ∧
      xpStep ranking ⟨event.userId, event.amount, now⟩ = some ranking' ∧
      events' = insertEvent events (xpAddedEvent event row now drawn) := by
  simp only [applyXpEvent, guard_eq_ok, bind_eq_ok, pure_eq_ok, Prod.mk.injEq] at h
  obtain ⟨-, ⟨row, t⟩, hcore, rfl, rfl⟩ := h
  obtain ⟨hrow, hstep⟩ := updateXpCore_ok hcore
  exact ⟨row, hrow, hstep, rfl⟩

/-- **The counter of a user is what the committed events have added.** -/
theorem exec_allTimeXp {config : OutboxConfig} {s t : XpSystem} {acts : List XpAction}
    (hs : s.credits = []) (h : exec (step config) s acts = some t) (u : String) :
    allTimeXp t.ranking u = allTimeXp s.ranking u + creditedXp t.credits u := by
  refine exec_invariant (I := fun x : XpSystem =>
    allTimeXp x.ranking u = allTimeXp s.ranking u + creditedXp x.credits u) ?_ h ?_
  · intro x a x' hx hstep
    rcases step_cases hstep with ⟨-, hjoined⟩ | ⟨_, _, _, -, -, -, rfl⟩ |
      ⟨i, now, drawn, fails, d, -, -, -, -, ⟨ranking, events, happly, rfl⟩ | ⟨_, -, rfl⟩⟩ |
      ⟨_, _, _, -, -, -, rfl⟩
    · rw [hjoined.ranking, hjoined.credits]
      exact hx
    · exact hx
    · obtain ⟨-, -, hxp, -⟩ := applyXpEvent_ok happly
      show allTimeXp ranking u = allTimeXp s.ranking u + creditedXp (x.credits ++ [d.event]) u
      rw [allTimeXp_xpStep hxp, creditedXp_append, hx]
      exact Int.add_assoc ..
    · exact hx
    · exact hx
  · rw [hs]
    simp [creditedXp]

end QuizBackend.Ranking
