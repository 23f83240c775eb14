import QuizBackend.Ranking.Batch
import QuizBackend.Ranking.XpIngestion

/-!
# Bulk XP (`bulkProcessXpEvents`)

The events are checked and claimed one by one, and what is let through goes into one transaction:
the counters in one statement, an outbox row for every event, a place in the recalculation queue for
every user. Two things keep a call that throws from being called again. The claims are not given
back, where `processXpEventInner` releases its one. And `processXpEventsBatch` runs on `this.db`
instead of `tx`, so what it has written is not rolled back.

What is left (`retryable_iff`) is a call that has claimed nothing, every event in it having got
through on a Redis command that threw, and whose batch has written nothing.
-/

namespace QuizBackend.Ranking

open Lib Outbox

/-! ## The claims -/

structure BulkXpEvent extends ValidXpEvent where
  idempotencyKey : String

def validateBulkXpEvent (event : ExternalXpEarnedEvent) : Except String BulkXpEvent :=
  if h : event.userId = "" ∨ event.amount ≤ 0 then
    .error s!"Invalid event structure for user {event.userId}"
  else if event.idempotencyKey = "" then
    .error s!"Missing idempotencyKey for user {event.userId}"
  else
    .ok ⟨⟨event.userId, event.amount, fun he => h (.inl he),
      Int.not_le.mp fun hle => h (.inr hle)⟩, event.idempotencyKey⟩

structure BulkResults where
  processed : Nat
  failed : Nat
  errors : List String
  deriving DecidableEq

structure BulkLoop where
  claims : List String
  results : BulkResults
  validEvents : List BulkXpEvent

def bulkRound (l : BulkLoop) (x : ExternalXpEarnedEvent × RedisReply) : BulkLoop :=
  match validateBulkXpEvent x.1 with
  | .error e =>
    { l with results := { l.results with
        failed := l.results.failed + 1, errors := l.results.errors ++ [e] } }
  | .ok event =>
    let (claimed, claims) := tryClaimXp l.claims event.idempotencyKey x.2
    if claimed then { l with claims, validEvents := l.validEvents ++ [event] }
    else { l with claims, results := { l.results with processed := l.results.processed + 1 } }

def bulkLoop (claims : List String) (events : List (ExternalXpEarnedEvent × RedisReply)) :
    BulkLoop :=
  events.foldl bulkRound ⟨claims, ⟨0, 0, []⟩, []⟩

/-! ## The transaction -/

structure BulkStore where
  ranking : UserRanking
  outbox : OutboxEvents
  claims : List String

/-- The `xp.added` row of the bulk path, which knows no totals. -/
def bulkXpAddedEvent (event : BulkXpEvent) (now : Int) (drawn : XpDrawn) : NewEvent :=
  { eventId := drawn.eventId, aggregateType := "ranking", eventType := "xp.added",
    payload :=
      [("eventType", .str "xp.added"), ("userId", .str event.userId), ("amount", .num event.amount),
       ("newAllTimeXp", .num 0), ("newWeeklyXp", .num 0), ("newMonthlyXp", .num 0),
       ("newDailyXp", .num 0), ("timestamp", .num now)],
    createdAt := now, nextAttemptAt := drawn.clock,
    idempotencyKey := some event.idempotencyKey, correlationId := none }

def uniqueUserIds (validEvents : List BulkXpEvent) : List String :=
  (validEvents.map (·.userId)).eraseDups

/-- The statements from `BEGIN` to `COMMIT`: the batch is number 1, then come an insert an event and
an enqueue a user. -/
def bulkStatements (validEvents : List BulkXpEvent) : Nat :=
  3 + validEvents.length + (uniqueUserIds validEvents).length

/-- The transaction; `refused` is the number of a statement that the database refuses. The batch is
on a connection of its own, and stays when the transaction is rolled back. -/
def bulkTransaction (pick : String → Nat) (s : BulkStore) (validEvents : List BulkXpEvent)
    (now : Int) (drawn : List XpDrawn) (refused : Option Nat) : Except String Unit × BulkStore :=
  if refused = some 0 ∨ refused = some 1 then (.error "database error", s)
  else match processXpEventsBatch pick s.ranking (validEvents.map (·.toValidXpEvent)) now with
    | none => (.error "integer out of range", s)
    | some ranking =>
      if ∃ k ∈ refused, k < bulkStatements validEvents then
        (.error "database error", { s with ranking })
      else
        (.ok (), { s with
          ranking
          outbox := (validEvents.zip drawn).foldl
            (fun outbox x => insertEvent outbox (bulkXpAddedEvent x.1 now x.2)) s.outbox })

/-- `bulkProcessXpEvents`, with the replies of Redis beside the events. -/
def bulkProcessXpEvents (pick : String → Nat) (s : BulkStore)
    (events : List (ExternalXpEarnedEvent × RedisReply)) (now : Int) (drawn : List XpDrawn)
    (refused : Option Nat) : Except String BulkResults × BulkStore :=
  let l := bulkLoop s.claims events
  let s := { s with claims := l.claims }
  if l.validEvents.isEmpty then (.ok l.results, s)
  else match bulkTransaction pick s l.validEvents now drawn refused with
    | (.error e, s) => (.error e, s)
    | (.ok _, s) =>
      (.ok { l.results with processed := l.results.processed + l.validEvents.length }, s)

/-! ## The property and its condition -/

def letThrough (claims : List String) (events : List ExternalXpEarnedEvent) : List String :=
  (bulkLoop claims (events.map (·, .answered))).validEvents.map (·.idempotencyKey)

def bulkKeys (events : List ExternalXpEarnedEvent) : List String :=
  events.filterMap fun event => (validateBulkXpEvent event).toOption.map (·.idempotencyKey)

/-- What a call that has thrown must leave: the tables as they were, no claim that was not there
before, and another call with the same events lets through the keys that were unclaimed. -/
structure Retryable (s s' : BulkStore) (events : List ExternalXpEarnedEvent) : Prop where
  ranking : s'.ranking = s.ranking
  outbox : s'.outbox = s.outbox
  released : ∀ key ∈ s'.claims, key ∈ s.claims
  again : ∀ key, key ∈ letThrough s'.claims events ↔ key ∈ bulkKeys events ∧ claimKey key ∉ s.claims

def ClaimsNothing (claims : List String) (events : List (ExternalXpEarnedEvent × RedisReply)) :
    Prop :=
  ∀ x ∈ events, ∀ event, validateBulkXpEvent x.1 = .ok event →
    claimKey event.idempotencyKey ∈ claims ∨ x.2 = .threw false ∨ x.2 = .shortCircuited

def RedisReply.isThrow : RedisReply → Bool
  | .threw _ => true
  | _ => false

def failedOpen (events : List (ExternalXpEarnedEvent × RedisReply)) : List BulkXpEvent :=
  events.filterMap fun x =>
    if x.2.isThrow then (validateBulkXpEvent x.1).toOption else none

/-- Nothing has been written: a statement before the batch has been refused, or the batch has, or a
total does not fit, or no user has a row. -/
def BatchWritesNothing (pick : String → Nat) (t : UserRanking) (events : List BulkXpEvent)
    (now : Int) (refused : Option Nat) : Prop :=
  refused = some 0 ∨ refused = some 1 ∨
    ¬ BatchFits pick t (events.map (·.toValidXpEvent)) now ∨
    NoRows t (events.map (·.toValidXpEvent))

/-! ## The loop -/

variable {l : BulkLoop} {event : ExternalXpEarnedEvent} {v : BulkXpEvent} {reply : RedisReply}
  {events : List (ExternalXpEarnedEvent × RedisReply)} {keys : List String} {key : String}

theorem bulkRound_of_error {e : String} (h : validateBulkXpEvent event = .error e) :
    (bulkRound l (event, reply)).claims = l.claims ∧
      (bulkRound l (event, reply)).validEvents = l.validEvents := by
  simp only [bulkRound, h]
  exact ⟨trivial, trivial⟩

theorem bulkRound_of_ok (h : validateBulkXpEvent event = .ok v) :
    (bulkRound l (event, reply)).claims = (tryClaimXp l.claims v.idempotencyKey reply).2 ∧
      (bulkRound l (event, reply)).validEvents = l.validEvents ++
        if (tryClaimXp l.claims v.idempotencyKey reply).1 then [v] else [] := by
  simp only [bulkRound, h]
  cases tryClaimXp l.claims v.idempotencyKey reply with
  | mk claimed claims =>
    cases claimed with
    | true => exact ⟨rfl, rfl⟩
    | false => exact ⟨rfl, (List.append_nil _).symm⟩

theorem tryClaimXp_nothing (h : claimKey key ∈ keys ∨ reply = .threw false ∨
    reply = .shortCircuited) : tryClaimXp keys key reply = (reply.isThrow, keys) := by
  rcases h with hmem | rfl | rfl
  · cases reply with
    | answered => simp [tryClaimXp, setIfNotExists, hmem, RedisReply.isThrow]
    | threw executed => simp [tryClaimXp, setIfNotExists, hmem, RedisReply.isThrow]
    | shortCircuited => rfl
  · simp [tryClaimXp, setIfNotExists, RedisReply.isThrow]
  · rfl

theorem claims_subset_tryClaimXp : ∀ other ∈ keys, other ∈ (tryClaimXp keys key reply).2 := by
  intro other hmem
  by_cases hnothing : claimKey key ∈ keys ∨ reply = .threw false ∨ reply = .shortCircuited
  · rwa [tryClaimXp_nothing hnothing]
  · rw [not_or, not_or] at hnothing
    cases reply with
    | answered => simp [tryClaimXp, setIfNotExists, hnothing.1, hmem]
    | threw executed =>
      cases executed with
      | true => simp [tryClaimXp, setIfNotExists, hnothing.1, hmem]
      | false => exact absurd rfl hnothing.2.1
    | shortCircuited => exact absurd rfl hnothing.2.2

theorem claims_subset_bulk : ∀ key ∈ l.claims, key ∈ (events.foldl bulkRound l).claims := by
  induction events generalizing l with
  | nil => exact fun key h => h
  | cons x events ih =>
    intro key hmem
    refine ih key ?_
    cases hv : validateBulkXpEvent x.1 with
    | error e => rwa [(bulkRound_of_error hv).1]
    | ok v =>
      rw [(bulkRound_of_ok hv).1]
      exact claims_subset_tryClaimXp key hmem

theorem bulk_of_claimsNothing (h : ClaimsNothing l.claims events) :
    (events.foldl bulkRound l).claims = l.claims ∧
      (events.foldl bulkRound l).validEvents = l.validEvents ++ failedOpen events := by
  induction events generalizing l with
  | nil => exact ⟨rfl, (List.append_nil _).symm⟩
  | cons x events ih =>
    obtain ⟨hx, hrest⟩ := List.forall_mem_cons.mp h
    rw [List.foldl_cons]
    cases hv : validateBulkXpEvent x.1 with
    | error e =>
      obtain ⟨hclaims, hvalid⟩ := @bulkRound_of_error l _ x.2 _ hv
      rw [← hclaims] at hrest
      obtain ⟨hc, hw⟩ := ih hrest
      refine ⟨hc.trans hclaims, ?_⟩
      rw [hw, hvalid]
      simp [failedOpen, hv, Except.toOption]
    | ok v =>
      obtain ⟨hclaims, hvalid⟩ := @bulkRound_of_ok l _ _ x.2 hv
      rw [tryClaimXp_nothing (hx v hv)] at hclaims hvalid
      change (bulkRound l x).claims = l.claims at hclaims
      rw [← hclaims] at hrest
      obtain ⟨hc, hw⟩ := ih hrest
      refine ⟨hc.trans hclaims, ?_⟩
      rw [hw, hvalid, List.append_assoc]
      cases hthrow : x.2.isThrow with
      | true => simp [failedOpen, hv, hthrow, Except.toOption]
      | false => simp [failedOpen, hthrow]

/-- **No claim is left, exactly**: the claims of a call are those from before it if and only if no
command makes one. -/
theorem released_iff : (∀ key ∈ (events.foldl bulkRound l).claims, key ∈ l.claims) ↔
    ClaimsNothing l.claims events := by
  refine ⟨fun hall => ?_, fun h key hmem => (bulk_of_claimsNothing h).1 ▸ hmem⟩
  induction events generalizing l with
  | nil => exact fun x h => absurd h List.not_mem_nil
  | cons x events ih =>
    rw [List.foldl_cons] at hall
    have hfirst : ∀ v, validateBulkXpEvent x.1 = .ok v →
        claimKey v.idempotencyKey ∈ l.claims ∨ x.2 = .threw false ∨ x.2 = .shortCircuited := by
      intro v hv
      by_contra hnot
      rw [not_or, not_or] at hnot
      obtain ⟨hmem, hthrew, hshort⟩ := hnot
      refine hmem (hall _ (claims_subset_bulk _ ?_))
      rw [(bulkRound_of_ok hv).1]
      cases hx : x.2 with
      | answered => simp [tryClaimXp, setIfNotExists, hmem]
      | threw executed =>
        cases executed with
        | true => simp [tryClaimXp, setIfNotExists, hmem]
        | false => exact absurd hx hthrew
      | shortCircuited => exact absurd hx hshort
    refine List.forall_mem_cons.mpr ⟨hfirst, ?_⟩
    have hkeep : (bulkRound l x).claims = l.claims :=
      (bulk_of_claimsNothing (List.forall_mem_singleton.mpr hfirst)).1
    have hrest := ih (l := bulkRound l x)
    rw [hkeep] at hrest
    exact hrest hall

theorem mem_letThrough_loop {events : List ExternalXpEarnedEvent} :
    key ∈ ((events.map (·, RedisReply.answered)).foldl bulkRound l).validEvents.map
        (·.idempotencyKey) ↔
      key ∈ l.validEvents.map (·.idempotencyKey) ∨
        key ∈ bulkKeys events ∧ claimKey key ∉ l.claims := by
  induction events generalizing l with
  | nil => simp [bulkKeys]
  | cons event events ih =>
    rw [List.map_cons, List.foldl_cons, ih]
    cases hv : validateBulkXpEvent event with
    | error e =>
      obtain ⟨hclaims, hvalid⟩ := @bulkRound_of_error l _ .answered _ hv
      rw [hclaims, hvalid]
      simp [bulkKeys, hv, Except.toOption]
    | ok v =>
      obtain ⟨hclaims, hvalid⟩ := @bulkRound_of_ok l _ _ .answered hv
      rw [hclaims, hvalid]
      have hkeys : key ∈ bulkKeys (event :: events) ↔
          key = v.idempotencyKey ∨ key ∈ bulkKeys events := by
        simp [bulkKeys, hv, Except.toOption]
      rw [hkeys]
      by_cases hmem : claimKey v.idempotencyKey ∈ l.claims
      · have hclaim : tryClaimXp l.claims v.idempotencyKey .answered = (false, l.claims) := by
          simp [tryClaimXp, setIfNotExists, hmem]
        rw [hclaim]
        by_cases hk : key = v.idempotencyKey
        · simp [hk, hmem]
        · simp [hk]
      · have hclaim : tryClaimXp l.claims v.idempotencyKey .answered =
            (true, claimKey v.idempotencyKey :: l.claims) := by
          simp [tryClaimXp, setIfNotExists, hmem]
        rw [hclaim]
        by_cases hk : key = v.idempotencyKey
        · simp [hk, hmem]
        · simp [hk, claimKey_inj]

theorem mem_letThrough {claims : List String} {events : List ExternalXpEarnedEvent} :
    key ∈ letThrough claims events ↔ key ∈ bulkKeys events ∧ claimKey key ∉ claims := by
  rw [letThrough, bulkLoop, mem_letThrough_loop]
  simp

/-! ## A call that throws -/

section Throws

theorem batch_unchanged_iff {pick : String → Nat} {t t' : UserRanking}
    {events : List ValidXpEvent} {now : Int}
    (h : processXpEventsBatch pick t events now = some t') : t' = t ↔ NoRows t events := by
  constructor
  · rintro rfl e he
    cases hrow : t'.find? e.userId with
    | none => rfl
    | some row =>
      have hkey : row.userId = e.userId := Table.key_of_find? hrow
      have hsame := find?_batch h e.userId
      rw [hrow, Option.map_some, Option.some.injEq] at hsame
      have hlt := lt_batchRow_allTimeXp pick now (hkey ▸ amounts_ne_nil he)
      rw [← hsame] at hlt
      omega
  · intro hno
    have hrow : ∀ row ∈ t.rows, batchRow pick events now row = row := by
      intro row hmem
      have hnil : amounts events row.userId = [] := by
        refine amounts_eq_nil_iff.mpr fun e he hu => ?_
        have hnone := hno e he
        rw [hu, Table.find?_of_mem hmem] at hnone
        cases hnone
      rw [batchRow, picked_eq_none_iff.mpr hnil]
    unfold processXpEventsBatch at h
    split at h
    · exact (Option.some.inj h).symm
    · split at h
      · rw [← Option.some.inj h]
        obtain ⟨rows, nodup⟩ := t
        simp only [Table.update, Table.mk.injEq]
        exact (List.map_congr_left hrow).trans (List.map_id _)
      · cases h

variable {pick : String → Nat} {s : BulkStore} {now : Int} {drawn : List XpDrawn}
  {refused : Option Nat} {e : String}

/-- What a transaction that throws leaves: what the batch has written, which is nothing where it has
not been executed. -/
theorem bulkTransaction_throws {validEvents : List BulkXpEvent}
    (h : (bulkTransaction pick s validEvents now drawn refused).1 = .error e) :
    ∃ ranking, (bulkTransaction pick s validEvents now drawn refused).2 = { s with ranking } ∧
      (ranking = s.ranking ↔ BatchWritesNothing pick s.ranking validEvents now refused) := by
  unfold bulkTransaction at h ⊢
  unfold BatchWritesNothing
  split at h
  next hearly =>
    rw [if_pos hearly]
    exact ⟨s.ranking, rfl, iff_of_true rfl (hearly.imp_right .inl)⟩
  next hearly =>
    rw [if_neg hearly]
    rw [not_or] at hearly
    rw [or_iff_right hearly.1, or_iff_right hearly.2]
    cases hbatch : processXpEventsBatch pick s.ranking (validEvents.map (·.toValidXpEvent)) now with
    | none => exact ⟨s.ranking, rfl, iff_of_true rfl (.inl (batch_eq_none_iff.mp hbatch))⟩
    | some ranking =>
      rw [hbatch] at h
      have hfits : BatchFits pick s.ranking (validEvents.map (·.toValidXpEvent)) now := by
        by_contra hno
        rw [batch_eq_none_iff.mpr hno] at hbatch
        cases hbatch
      simp only at h ⊢
      split at h
      · next hlater =>
        rw [if_pos hlater, or_iff_right (not_not_intro hfits)]
        exact ⟨ranking, rfl, batch_unchanged_iff hbatch⟩
      · cases h

theorem bulkProcessXpEvents_throws {events : List (ExternalXpEarnedEvent × RedisReply)}
    (h : (bulkProcessXpEvents pick s events now drawn refused).1 = .error e) :
    ∃ ranking, (bulkProcessXpEvents pick s events now drawn refused).2 =
        { s with ranking, claims := (bulkLoop s.claims events).claims } ∧
      (ranking = s.ranking ↔
        BatchWritesNothing pick s.ranking (bulkLoop s.claims events).validEvents now refused) := by
  simp only [bulkProcessXpEvents] at h ⊢
  split at h
  · cases h
  · next hsome =>
    rw [if_neg hsome]
    generalize htx : bulkTransaction pick _ _ now drawn refused = r at h ⊢
    obtain ⟨result, after⟩ := r
    cases result with
    | ok u => cases h
    | error e' =>
      obtain ⟨ranking, hstore, hranking⟩ := bulkTransaction_throws (congrArg Prod.fst htx)
      rw [htx] at hstore
      exact ⟨ranking, hstore, hranking⟩

/-- **Retryable, exactly.** A call that throws can be called again if and only if no Redis command
of it made a claim and its batch wrote nothing: the batch of the events that failed open, for there
are no others then. -/
theorem retryable_iff {events : List (ExternalXpEarnedEvent × RedisReply)}
    (h : (bulkProcessXpEvents pick s events now drawn refused).1 = .error e) :
    Retryable s (bulkProcessXpEvents pick s events now drawn refused).2 (events.map (·.1)) ↔
      ClaimsNothing s.claims events ∧
        BatchWritesNothing pick s.ranking (failedOpen events) now refused := by
  obtain ⟨ranking, hstore, hranking⟩ := bulkProcessXpEvents_throws h
  rw [hstore]
  constructor
  · rintro ⟨hsame, -, hreleased, -⟩
    have hnothing := released_iff.mp hreleased
    refine ⟨hnothing, ?_⟩
    have hbatch := hranking.mp hsame
    rw [bulkLoop, (bulk_of_claimsNothing hnothing).2] at hbatch
    exact hbatch
  · rintro ⟨hnothing, hbatch⟩
    have hclaims : (bulkLoop s.claims events).claims = s.claims :=
      (bulk_of_claimsNothing hnothing).1
    refine ⟨hranking.mpr ?_, rfl, released_iff.mpr hnothing, fun key => ?_⟩
    · rw [bulkLoop, (bulk_of_claimsNothing hnothing).2]
      exact hbatch
    · simp only [hclaims]
      exact mem_letThrough

end Throws

/-! ## A call to look at -/

def bulkStore : BulkStore := ⟨fiftyToday, Table.empty _, []⟩

def tenXp : ExternalXpEarnedEvent := ⟨"01900000-0000-7000-8000-000000000001", 10, "attempt:1"⟩

/-- With Redis down and the batch refused, the call is retryable. -/
theorem retryable_after_outage :
    Retryable bulkStore (bulkProcessXpEvents (fun _ => 0) bulkStore [(tenXp, .threw false)] 60000 []
      (some 1)).2 [tenXp] := by
  refine (retryable_iff (e := "database error") (by decide +kernel)).mpr ⟨?_, .inr (.inl rfl)⟩
  exact List.forall_mem_singleton.mpr fun event h => .inr (.inl rfl)

/-- The outbox insert is refused, and the key stays claimed. -/
theorem refused_insert_not_retryable :
    (bulkProcessXpEvents (fun _ => 0) bulkStore [(tenXp, .answered)] 60000 [⟨"e1", 0⟩]
        (some 2)).1 = .error "database error" ∧
      ¬ Retryable bulkStore (bulkProcessXpEvents (fun _ => 0) bulkStore [(tenXp, .answered)] 60000
        [⟨"e1", 0⟩] (some 2)).2 [tenXp] := by
  refine ⟨by decide +kernel, ?_⟩
  rintro ⟨-, -, hreleased, -⟩
  have hclaimed := hreleased (claimKey "attempt:1") (by decide +kernel)
  exact absurd hclaimed List.not_mem_nil

end QuizBackend.Ranking
