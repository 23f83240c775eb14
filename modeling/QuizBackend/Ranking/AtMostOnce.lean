import QuizBackend.Ranking.XpIngestion

/-!
# XP at most once

Of the three layers that are to keep an event from being counted twice only the claim in Redis does
anything: the partial unique index stands behind an `ON CONFLICT DO NOTHING` that drops the outbox
row and lets the counters through, and the transaction checks no state. So what a key is counted is
what the claim lets through.

A claim is a lock with a memory: it is taken before the transaction, stays when the transaction has
committed, and is given back when it has thrown. A key is *spent* by a committed event or by a call
past its claim, and in every run a key is spent at most once, with its claim in Redis as long as it
is, provided that `tryClaimXp` answers `true` only for a claim that has been made. It answers `true`
also when the command throws. Then the claim may be somebody else's, or nobody's.
-/

namespace QuizBackend.Ranking

open Lib Outbox XpSystem

/-! ## The property and its condition -/

/-- No key is credited twice, and the counters show what was credited. -/
structure XpOnce (start s : XpSystem) : Prop where
  once : ∀ key, s.credits.countP (fun event => event.idempotencyKey = key) ≤ 1
  counter : ∀ userId,
    allTimeXp s.ranking userId = allTimeXp start.ranking userId + creditedXp s.credits userId

def ClaimsMade (s : XpSystem) : XpAction → Prop
  | .claim i (.threw executed) =>
    ∀ d ∈ s.deliveries[i]?, executed = true ∧ claimKey d.event.idempotencyKey ∉ s.claims
  | _ => True

/-! ## Spent keys -/

def holds (key : String) (d : XpDelivery) : Bool :=
  d.phase ≠ .received ∧ d.event.idempotencyKey = key

def XpSystem.spent (s : XpSystem) (key : String) : Nat :=
  s.credits.countP (fun event => event.idempotencyKey = key) + s.deliveries.countP (holds key)

def ClaimedOnce (s : XpSystem) : Prop :=
  ∀ key, s.spent key ≤ 1 ∧ (0 < s.spent key → claimKey key ∈ s.claims)

theorem holds_received {key : String} {d : XpDelivery} (h : d.phase = .received) :
    holds key d = false := by
  simp [holds, h]

theorem holds_of_phase {key : String} {d : XpDelivery} (h : d.phase ≠ .received) :
    holds key d = decide (d.event.idempotencyKey = key) := by
  simp [holds, h]

/-- What a claim comes to, if it is not answered for nothing: it is made where there was none, or
the call is turned away and nothing changes. -/
theorem tryClaimXp_cases {keys : List String} {key : String} {reply : RedisReply}
    (h : ∀ executed, reply = .threw executed → executed = true ∧ claimKey key ∉ keys) :
    (tryClaimXp keys key reply = (true, claimKey key :: keys) ∧ claimKey key ∉ keys) ∨
      tryClaimXp keys key reply = (false, keys) := by
  cases reply with
  | answered =>
    by_cases hmem : claimKey key ∈ keys
    · exact .inr (by simp [tryClaimXp, setIfNotExists, hmem])
    · exact .inl ⟨by simp [tryClaimXp, setIfNotExists, hmem], hmem⟩
  | threw executed =>
    obtain ⟨rfl, hmem⟩ := h executed rfl
    exact .inl ⟨by simp [tryClaimXp, setIfNotExists, hmem], hmem⟩
  | shortCircuited => exact .inr rfl

theorem mem_releaseXp {keys : List String} {key other : String} (reply : RedisReply)
    (hne : other ≠ key) (h : claimKey other ∈ keys) :
    claimKey other ∈ releaseXp keys key reply := by
  have hkeep : claimKey other ∈ keys.filter (· ≠ claimKey key) := by
    rw [List.mem_filter]
    exact ⟨h, by simpa [claimKey_inj] using hne⟩
  cases reply with
  | answered => exact hkeep
  | threw executed =>
    cases executed with
    | false => exact h
    | true => exact hkeep
  | shortCircuited => exact h

/-! ## One step -/

section OneStep

variable {s s' : XpSystem} {i : Nat} {d : XpDelivery}

theorem XpSystem.Joined.spent (h : s.Joined s') (key : String) : s'.spent key = s.spent key := by
  obtain ⟨added, hdeliveries, hreceived⟩ := h.deliveries
  have hnone : added.countP (holds key) = 0 := by
    refine List.countP_eq_zero.mpr ?_
    intro x hx
    simp [holds_received (hreceived x hx)]
  rw [XpSystem.spent, XpSystem.spent, h.credits, hdeliveries, List.countP_append, hnone,
    Nat.add_zero]

section

variable (hd : s.deliveries[i]? = some d)
include hd

theorem spent_claimed (hphase : d.phase = .received)
    (claims : List String) (key : String) :
    { s with claims, deliveries := s.deliveries.set i { d with phase := .claimed } }.spent key
      = s.spent key + if d.event.idempotencyKey = key then 1 else 0 := by
  have hcount := countP_set_add (p := holds key) (y := { d with phase := .claimed }) hd
  rw [holds_received hphase, holds_of_phase (d := { d with phase := .claimed })
    (by intro h; cases h)] at hcount
  simp only [Bool.false_eq_true, if_false, Nat.add_zero, decide_eq_true_eq] at hcount
  unfold spent
  rw [hcount, Nat.add_assoc]

theorem spent_turnedAway (hphase : d.phase = .received)
    (claims : List String) (key : String) :
    { s with claims, deliveries := s.deliveries.eraseIdx i }.spent key = s.spent key := by
  have hcount := countP_eraseIdx_add (p := holds key) hd
  rw [holds_received hphase] at hcount
  simp only [Bool.false_eq_true, if_false, Nat.add_zero] at hcount
  unfold spent
  rw [hcount]

section

variable (hphase : d.phase ≠ .received)
include hphase

theorem spent_released (claims : List String) (key : String) :
    { s with claims, deliveries := s.deliveries.eraseIdx i }.spent key
        + (if d.event.idempotencyKey = key then 1 else 0) = s.spent key := by
  have hcount := countP_eraseIdx_add (p := holds key) hd
  rw [holds_of_phase hphase] at hcount
  simp only [decide_eq_true_eq] at hcount
  unfold spent
  rw [← hcount, Nat.add_assoc]

theorem spent_committed (ranking : UserRanking) (outbox : Outbox.System) (key : String) :
    { s with
      ranking, outbox, deliveries := s.deliveries.eraseIdx i,
      credits := s.credits ++ [d.event] }.spent key = s.spent key := by
  have hcount := countP_eraseIdx_add (p := holds key) hd
  rw [holds_of_phase hphase] at hcount
  simp only [decide_eq_true_eq] at hcount
  unfold spent
  rw [List.countP_append, List.countP_singleton, ← hcount]
  simp only [decide_eq_true_eq]
  omega

theorem spent_failed (key : String) :
    { s with deliveries := s.deliveries.set i { d with phase := .failed } }.spent key
      = s.spent key := by
  have hcount := countP_set_add (p := holds key) (y := { d with phase := .failed }) hd
  rw [holds_of_phase hphase, holds_of_phase (d := { d with phase := .failed })
    (by intro h; cases h)] at hcount
  have hcount := Nat.add_right_cancel hcount
  unfold spent
  rw [hcount]

end

end

end OneStep

theorem XpDelivery.ne_received {d : XpDelivery} (h : d.phase = .claimed ∨ d.phase = .failed) :
    d.phase ≠ .received := by
  intro hreceived
  rw [hreceived] at h
  rcases h with h | h
  · cases h
  · cases h

theorem ClaimedOnce.step {config : OutboxConfig} {s s' : XpSystem} {a : XpAction}
    (h : ClaimedOnce s) (hmade : ClaimsMade s a) (hstep : s.step config a = some s') :
    ClaimedOnce s' := by
  rcases step_cases hstep with ⟨-, hjoined⟩ | ⟨i, reply, d, rfl, hd, hphase, rfl⟩ |
    ⟨i, now, drawn, fails, d, rfl, hd, hphase, -, ⟨ranking, events, -, rfl⟩ | ⟨_, -, rfl⟩⟩ |
    ⟨i, reply, d, rfl, hd, hphase, rfl⟩
  · intro key
    rw [hjoined.spent, hjoined.claims]
    exact h key
  · have hreply : ∀ executed, reply = .threw executed →
        executed = true ∧ claimKey d.event.idempotencyKey ∉ s.claims := by
      rintro executed rfl
      exact hmade d hd
    rcases tryClaimXp_cases hreply with ⟨hclaim, hfree⟩ | hclaim
    · rw [hclaim]
      intro key
      rw [if_pos rfl, spent_claimed hd hphase]
      by_cases hkey : d.event.idempotencyKey = key
      · -- the key was free, so nobody had spent it
        subst hkey
        have hzero : s.spent d.event.idempotencyKey = 0 :=
          Nat.eq_zero_of_not_pos fun hpos => hfree ((h _).2 hpos)
        rw [if_pos rfl, hzero]
        exact ⟨Nat.le_refl _, fun _ => List.mem_cons_self ..⟩
      · rw [if_neg hkey, Nat.add_zero]
        exact ⟨(h key).1, fun hpos => List.mem_cons_of_mem _ ((h key).2 hpos)⟩
    · rw [hclaim]
      intro key
      rw [if_neg (by simp), spent_turnedAway hd hphase]
      exact h key
  · intro key
    rw [spent_committed hd (XpDelivery.ne_received (.inl hphase))]
    exact h key
  · intro key
    rw [spent_failed hd (XpDelivery.ne_received (.inl hphase))]
    exact h key
  · intro key
    have hspent := spent_released hd (XpDelivery.ne_received (.inr hphase))
      (releaseXp s.claims d.event.idempotencyKey reply) key
    obtain ⟨hle, hclaim⟩ := h key
    by_cases hkey : d.event.idempotencyKey = key
    · rw [if_pos hkey] at hspent
      exact ⟨by omega, fun hpos => absurd hpos (by omega)⟩
    · rw [if_neg hkey, Nat.add_zero] at hspent
      rw [hspent]
      exact ⟨hle, fun hpos => mem_releaseXp reply (Ne.symm hkey) (hclaim hpos)⟩

/-! ## Every run -/

/-- **XP is counted at most once per key**, in every run in which a claim command throws only after
it has made the claim. -/
theorem xp_counted_once_while_claims_made (config : OutboxConfig) (start : XpSystem)
    (hidle : start.deliveries = []) (hnone : start.credits = []) (acts : List XpAction)
    (hmade : Along (XpSystem.step config) ClaimsMade start acts) :
    Always (XpSystem.step config) (XpOnce start) start acts := by
  intro pre s hpre hs
  have hstart : ClaimedOnce start := by
    intro key
    simp [XpSystem.spent, hidle, hnone]
  have hclaimed : ClaimedOnce s := (hmade.of_prefix hpre).invariant
    (fun _ _ _ h hc hstep => h.step hc hstep) hs hstart
  refine ⟨?_, exec_allTimeXp hnone hs⟩
  intro key
  exact Nat.le_trans (Nat.le_add_right ..) (hclaimed key).1

instance (s : XpSystem) (a : XpAction) : Decidable (ClaimsMade s a) :=
  match a with
  | .claim i (.threw executed) => inferInstanceAs (Decidable (∀ d ∈ s.deliveries[i]?,
      executed = true ∧ claimKey d.event.idempotencyKey ∉ s.claims))
  | .claim _ .answered => .isTrue trivial
  | .claim _ .shortCircuited => .isTrue trivial
  | .complete .. => .isTrue trivial
  | .outbox .. => .isTrue trivial
  | .deliver .. => .isTrue trivial
  | .transact .. => .isTrue trivial
  | .release .. => .isTrue trivial

def plainConfig : OutboxConfig := ⟨⟨8, 30⟩, true⟩

def fiftyXp : ExternalXpEarnedEvent := attemptXpEvent 1 11 50

/-- Both deliveries of an event; the claim of the first command is answered as `reply` says. -/
def bothDeliveries (reply : RedisReply) : List XpAction :=
  [.deliver fiftyXp .inProc, .deliver fiftyXp .outbox, .claim 0 reply,
   .transact 0 0 ⟨"e1", 0⟩ false, .claim 0 .answered]

theorem xp_counted_once_while_claims_made_twice_delivered :
    Along (XpSystem.step plainConfig) ClaimsMade XpSystem.start (bothDeliveries .answered) ∧
      ∃ s, exec (XpSystem.step plainConfig) XpSystem.start (bothDeliveries .answered) = some s ∧
        s.credits = [fiftyXp] ∧ XpOnce XpSystem.start s := by
  have hmade : Along (XpSystem.step plainConfig) ClaimsMade XpSystem.start
      (bothDeliveries .answered) := by
    decide +kernel
  obtain ⟨s, hs, hcredits⟩ : ∃ s, exec (XpSystem.step plainConfig) XpSystem.start
      (bothDeliveries .answered) = some s ∧ s.credits = [fiftyXp] :=
    Option.map_eq_some_iff.mp (by decide +kernel)
  exact ⟨hmade, s, hs, hcredits, xp_counted_once_while_claims_made plainConfig XpSystem.start rfl rfl
    (bothDeliveries .answered) hmade (bothDeliveries .answered) s (List.prefix_refl _) hs⟩

/-- The first claim command throws without having been executed, and the second delivery finds the
key free: the fifty XP are counted twice. -/
theorem xp_counted_twice_after_a_failed_claim :
    ∃ s, exec (XpSystem.step plainConfig) XpSystem.start
        (bothDeliveries (.threw false) ++ [.transact 0 0 ⟨"e2", 0⟩ false]) = some s ∧
      allTimeXp s.ranking (1 : Uuid).text = 100 ∧ ¬ XpOnce XpSystem.start s := by
  refine exists_of_read (fun s => (allTimeXp s.ranking (1 : Uuid).text, s.credits))
    (100, [fiftyXp, fiftyXp]) (by decide +kernel) fun s hs hread => ?_
  rw [Prod.mk.injEq] at hread
  refine ⟨hread.1, ?_⟩
  intro honce
  have hle := honce.once fiftyXp.idempotencyKey
  rw [hread.2] at hle
  simp at hle

end QuizBackend.Ranking
