import QuizBackend.Coins.Idempotency
import QuizBackend.Lib.Exclusive

/-!
# Rewards for attempts (`attempt-coin-listener.adapter.ts`)

A completed attempt earns five coins if its score is positive and ten more if it is perfect. The
listener asks for the two one after the other, and `processCoinEvent` makes the idempotency key of
each out of the user, the source and the attempt. The reason is not among them, so the bonus comes
with the key the reward has just used, and is refused as a repetition of it.

Everything else is as it should be: an attempt whose score is positive has its five coins once, no
matter how often its event is delivered. So the listener credits what has been earned exactly when
nothing perfect is delivered.
-/

namespace QuizBackend.Coins

open Lib Outbox

/-! ## The listener -/

/-- `AttemptCompletedEvent`, the members the listener reads. The score is in hundredths of a
percent. -/
structure AttemptCompletedEvent where
  userId : Uuid
  attemptId : Uuid
  scorePercent : Nat

def perfectScore : Nat := 10000

def isPassingScore (scorePercent : Nat) : Bool := 0 < scorePercent

def perfectBonus (userId attemptId : String) : CoinEventInput :=
  { userId, source := .attempt, amount := 10, reason := "QUIZ_PERFECT_BONUS",
    referenceId := attemptId }

def AttemptCompletedEvent.reward (event : AttemptCompletedEvent) : CoinEventInput :=
  completionReward event.userId.text event.attemptId.text

def AttemptCompletedEvent.bonus (event : AttemptCompletedEvent) : CoinEventInput :=
  perfectBonus event.userId.text event.attemptId.text

/-- An event that reaches the listener, with what its two requests find: the other tables, the
clock, and what the database draws. -/
structure Delivery where
  event : AttemptCompletedEvent
  env : CoinEnv
  now : Int
  drawn : Drawn
  bonusNow : Int
  bonusDrawn : Drawn

def grantBonus (economy : Economy) (d : Delivery) : Economy :=
  if d.event.scorePercent = perfectScore then
    (processCoinEvent d.env economy d.event.bonus d.bonusNow d.bonusDrawn).2
  else economy

/-- `onEvent`. An error of either request is caught and logged, and ends the event. -/
def onEvent (economy : Economy) (d : Delivery) : Economy :=
  let passed := isPassingScore d.event.scorePercent
  let isPerfect : Bool := d.event.scorePercent = perfectScore
  if !passed && !isPerfect then economy
  else if passed then
    match processCoinEvent d.env economy d.event.reward d.now d.drawn with
    | (.error _, economy') => economy'
    | (.ok _, economy') => grantBonus economy' d
  else grantBonus economy d

def Economy.deliver (economy : Economy) (d : Delivery) : Option Economy :=
  some (onEvent economy d)

/-! ## What should come of it -/

def isRewardOf (reason : String) (event : AttemptCompletedEvent) (row : CoinTransactionRow) : Bool :=
  row.reason == reason && row.userId == event.userId.text && row.referenceType == .attempt &&
    row.referenceId == some event.attemptId.text

/-- Each reward of the attempt is on the ledger once. -/
structure CreditedOnce (rows : List CoinTransactionRow) (event : AttemptCompletedEvent) : Prop where
  completion : 0 < event.scorePercent →
    rows.countP (isRewardOf "QUIZ_COMPLETION_REWARD" event) = 1
  perfect : event.scorePercent = perfectScore →
    rows.countP (isRewardOf "QUIZ_PERFECT_BONUS" event) = 1

/-- The events are those of existing attempts that have not been rewarded before, and the wallets
are what the table allows. -/
structure Deliverable (economy : Economy) (ds : List Delivery) : Prop where
  attempts : ∀ d ∈ ds, d.env.referenceExists .attempt d.event.attemptId.text = true
  fresh : ∀ d ∈ ds, economy.coins.hasKey d.event.reward.key = false
  wallets : WithinCap economy.coins

/-- The user has not earned the day's cap. -/
def CapNotReached (economy : Economy) (d : Delivery) : Prop :=
  getDailyEarnCapSum economy.coins d.event.userId.text (startOfUtcDay d.now) < dailyQuizEarningsCap

/-! ## The derived key -/

theorem CoinSource.text_append_inj {a b : CoinSource} {x y : List Char}
    (h : a.text.toList ++ x = b.text.toList ++ y) : a = b ∧ x = y := by
  have hsource : a = b := by
    have hhead := congrArg List.head? h
    cases a <;> cases b <;>
      first
        | rfl
        | exact absurd hhead (by simp [CoinSource.text])
  subst hsource
  exact ⟨rfl, List.append_cancel_left h⟩

theorem deriveIdempotencyKey_eq_iff {event event' : CoinEventInput} {user user' : Uuid}
    (hu : event.userId = user.text) (hu' : event'.userId = user'.text) :
    deriveIdempotencyKey event = deriveIdempotencyKey event' ↔
      event.userId = event'.userId ∧ event.source = event'.source ∧
        event.referenceId = event'.referenceId := by
  constructor
  · intro h
    have hlist := congrArg String.toList h
    simp only [deriveIdempotencyKey, hu, hu', String.toList_append, List.append_assoc, Uuid.text,
      String.toList_ofList] at hlist
    have hlist := List.append_cancel_left hlist
    obtain ⟨hchars, hrest⟩ := List.append_inj hlist (by rw [user.length_chars, user'.length_chars])
    obtain ⟨hsource, hrest⟩ := CoinSource.text_append_inj (List.append_cancel_left hrest)
    refine ⟨?_, hsource, ?_⟩
    · rw [hu, hu', Uuid.chars_injective hchars]
    · exact String.toList_injective (List.append_cancel_left hrest)
  · rintro ⟨huser, hsource, href⟩
    simp only [deriveIdempotencyKey, huser, hsource, href]

theorem reward_key_eq_iff {e e' : AttemptCompletedEvent} :
    e.reward.key = e'.reward.key ↔ e.userId = e'.userId ∧ e.attemptId = e'.attemptId := by
  have hkey : ∀ x : AttemptCompletedEvent, x.reward.key = deriveIdempotencyKey x.reward :=
    fun _ => rfl
  have huser : ∀ x : AttemptCompletedEvent, x.reward.userId = x.userId.text := fun _ => rfl
  rw [hkey, hkey, deriveIdempotencyKey_eq_iff (huser e) (huser e'), huser, huser, Uuid.text_inj]
  simp only [AttemptCompletedEvent.reward, completionReward, Uuid.text_inj, true_and]

/-! ## One event -/

variable {db' : CoinDb} {row : CoinTransactionRow}

theorem Posted.withinCap {db : CoinDb} {userId : String} {amount balance : Int}
    (h : Posted db db' userId amount balance) (hc : WithinCap db)
    (hb : 0 ≤ balance ∧ balance ≤ 1000000) : WithinCap db' := by
  refine withinCap_iff.mpr ?_
  intro u
  by_cases hu : u = userId
  · rw [hu, h.balance]
    exact hb
  · rw [h.frame u hu]
    exact withinCap_iff.mp hc u

/-- A credit that the checks let through and the ledger accepts goes through, and leaves its row. -/
theorem processCoinEvent_of_accepted {env : CoinEnv} {economy : Economy} {event : CoinEventInput}
    {now : Int} (drawn : Drawn) (hvalid : validateEvent event = .ok ())
    (hexists : env.referenceExists (mapReferenceType event.source) event.referenceId = true)
    (hacc : CreditAccepted economy.coins
      (event.params (computeAppliedDelta economy.coins event now).1 now))
    (hwallets : WithinCap economy.coins) :
    ∃ result economy' balanceAfter,
      processCoinEvent env economy event now drawn = (.ok result, economy') ∧
      economy'.coins.coinTransactions = economy.coins.coinTransactions ++
        [(event.params (computeAppliedDelta economy.coins event now).1 now).row
          drawn.transactionId balanceAfter] ∧
      WithinCap economy'.coins := by
  obtain ⟨result, coins, hdelta, hposted⟩ := applyDeltaInTx_spec drawn.transactionId hacc
  obtain ⟨balanceAfter, hrow, -⟩ := applyDeltaInTx_row hdelta
  have hprepare : prepareCoinEvent env economy.coins event now
      = .ok (some (event.params (computeAppliedDelta economy.coins event now).1 now,
          (computeAppliedDelta economy.coins event now).2)) := by
    have hne : (computeAppliedDelta economy.coins event now).1 ≠ 0 := hacc.nonzero
    unfold prepareCoinEvent CoinEnv.assertExists
    rw [hvalid, if_pos hexists]
    simp only [bind, Except.bind, if_neg hne]
    rfl
  let outbox := insertEvent economy.outbox
    (coinAddedEvent (event.params (computeAppliedDelta economy.coins event now).1 now) result drawn)
  refine ⟨⟨event.userId, (computeAppliedDelta economy.coins event now).1, result.wallet.balance,
    some result.transactionId⟩, { economy with coins, outbox }, balanceAfter, ?_, hrow,
    hposted.withinCap hwallets ⟨?_, ?_⟩⟩
  · unfold processCoinEvent
    rw [hprepare]
    simp only [Economy.transaction, commitCoinEvent, hdelta, bind, Except.bind, pure, Except.pure]
    rfl
  · omega
  · omega

section OneEvent

variable {economy : Economy} {d : Delivery}

theorem validateEvent_reward (event : AttemptCompletedEvent) :
    validateEvent event.reward = .ok () := by
  unfold validateEvent AttemptCompletedEvent.reward completionReward
  simp [Uuid.text_ne_empty, coinReason]

theorem computeAppliedDelta_reward (hcap : CapNotReached economy d) :
    0 < (computeAppliedDelta economy.coins d.event.reward d.now).1 ∧
      (computeAppliedDelta economy.coins d.event.reward d.now).1 ≤ 5 := by
  have hdelta : (computeAppliedDelta economy.coins d.event.reward d.now).1
      = min 5 (max 0 (dailyQuizEarningsCap - getDailyEarnCapSum economy.coins d.event.userId.text
          (startOfUtcDay d.now))) := rfl
  unfold CapNotReached at hcap
  rw [hdelta]
  omega

theorem reward_accepted (hcap : CapNotReached economy d) (hwallets : WithinCap economy.coins)
    (hfresh : economy.coins.hasKey d.event.reward.key = false) :
    CreditAccepted economy.coins (d.event.reward.params
      (computeAppliedDelta economy.coins d.event.reward d.now).1 d.now) := by
  obtain ⟨hpos, hle⟩ := computeAppliedDelta_reward hcap
  have hbalance := withinCap_iff.mp hwallets d.event.userId.text
  refine ⟨?_, ?_, ?_, Int.ne_of_gt hpos, hfresh⟩
  · show IsInt4 (computeAppliedDelta economy.coins d.event.reward d.now).1
    unfold IsInt4
    omega
  · show IsInt4 (economy.coins.balance d.event.userId.text +
      (computeAppliedDelta economy.coins d.event.reward d.now).1)
    unfold IsInt4
    omega
  · show "QUIZ_COMPLETION_REWARD" ∈ coinReason
    decide

theorem grantBonus_of_hasKey (h : economy.coins.hasKey d.event.reward.key = true) :
    grantBonus economy d = economy := by
  unfold grantBonus
  split
  · exact processCoinEvent_of_hasKey d.bonusNow d.bonusDrawn h
  · rfl

theorem hasKey_append {db : CoinDb} (h : db'.coinTransactions = db.coinTransactions ++ [row]) :
    db'.hasKey row.idempotencyKey = true := by
  simp [CoinDb.hasKey, h]

def IsReward (event : AttemptCompletedEvent) (row : CoinTransactionRow) : Prop :=
  row.reason = "QUIZ_COMPLETION_REWARD" ∧ row.userId = event.userId.text ∧
    row.referenceType = .attempt ∧ row.referenceId = some event.attemptId.text ∧
    row.idempotencyKey = event.reward.key

theorem isReward_row (event : AttemptCompletedEvent) (delta now : Int) (transactionId : String)
    (balanceAfter : Int) :
    IsReward event ((event.reward.params delta now).row transactionId balanceAfter) := by
  unfold IsReward ApplyDeltaParams.row CoinEventInput.params
  exact ⟨rfl, rfl, rfl, rfl, rfl⟩

/-- **What an event does**: nothing, if it has earned nothing or has been rewarded; otherwise it
appends its reward. A bonus it never appends. -/
theorem onEvent_cases (hexists : d.env.referenceExists .attempt d.event.attemptId.text = true)
    (hcap : CapNotReached economy d) (hwallets : WithinCap economy.coins) :
    (onEvent economy d = economy ∧
      (0 < d.event.scorePercent → economy.coins.hasKey d.event.reward.key = true)) ∨
    (0 < d.event.scorePercent ∧ economy.coins.hasKey d.event.reward.key = false ∧
      WithinCap (onEvent economy d).coins ∧
      ∃ row, IsReward d.event row ∧ (onEvent economy d).coins.coinTransactions
        = economy.coins.coinTransactions ++ [row]) := by
  by_cases hscore : 0 < d.event.scorePercent
  · have hpassed : isPassingScore d.event.scorePercent = true := decide_eq_true hscore
    cases hkey : economy.coins.hasKey d.event.reward.key with
    | true =>
      have hsame : (processCoinEvent d.env _ _ d.now d.drawn).2 = _ :=
        processCoinEvent_of_hasKey d.now d.drawn hkey
      refine .inl ⟨?_, fun _ => rfl⟩
      unfold onEvent
      simp only [hpassed, Bool.not_true, Bool.false_and, Bool.false_eq_true, if_false, if_true]
      split
      · next economy' hprocess =>
        rw [hprocess] at hsame
        exact hsame
      · next economy' hprocess =>
        rw [hprocess] at hsame
        have hsame : economy' = economy := hsame
        rw [hsame]
        exact grantBonus_of_hasKey hkey
    | false =>
      obtain ⟨result, economy', balanceAfter, hprocess, hrows, hwallets'⟩ :=
        processCoinEvent_of_accepted d.drawn (validateEvent_reward d.event) hexists
          (reward_accepted hcap hwallets hkey) hwallets
      have hreward := isReward_row d.event
        (computeAppliedDelta economy.coins d.event.reward d.now).1 d.now d.drawn.transactionId
        balanceAfter
      have hnext : onEvent economy d = economy' := by
        unfold onEvent
        simp only [hpassed, Bool.not_true, Bool.false_and, Bool.false_eq_true, if_false, if_true,
          hprocess]
        -- the key the bonus comes with is the one just written
        refine grantBonus_of_hasKey ?_
        rw [← hreward.2.2.2.2]
        exact hasKey_append hrows
      rw [hnext]
      exact .inr ⟨hscore, rfl, hwallets', _, hreward, hrows⟩
  · refine .inl ⟨?_, fun h => absurd h hscore⟩
    have hzero : d.event.scorePercent = 0 := Nat.eq_zero_of_not_pos hscore
    unfold onEvent
    simp [hzero, isPassingScore, perfectScore]

end OneEvent

/-! ## Any number of events -/

/-- What events have added to the ledger: rewards of theirs, none twice, and one for each that has
earned it. -/
structure Credited (ds : List Delivery) (rows : List CoinTransactionRow) : Prop where
  keys : (rows.map (·.idempotencyKey)).Nodup
  origin : ∀ row ∈ rows, ∃ d ∈ ds, IsReward d.event row
  earned : ∀ d ∈ ds, 0 < d.event.scorePercent →
    ∃ row ∈ rows, row.idempotencyKey = d.event.reward.key

theorem mem_of_hasKey_append {db : CoinDb} {rows : List CoinTransactionRow} {key : String}
    (h : db'.coinTransactions = db.coinTransactions ++ rows) (hfresh : db.hasKey key = false)
    (hkey : db'.hasKey key = true) : ∃ row ∈ rows, row.idempotencyKey = key := by
  unfold CoinDb.hasKey at hfresh hkey
  rw [h, List.any_append, hfresh, Bool.false_or, List.any_eq_true] at hkey
  obtain ⟨row, hrow, heq⟩ := hkey
  exact ⟨row, hrow, by simpa using heq⟩

theorem hasKey_of_mem_append {db : CoinDb} {rows : List CoinTransactionRow}
    (h : db'.coinTransactions = db.coinTransactions ++ rows) (hrow : row ∈ rows) :
    db'.hasKey row.idempotencyKey = true := by
  unfold CoinDb.hasKey
  rw [h, List.any_append, Bool.or_eq_true, List.any_eq_true, List.any_eq_true]
  exact .inr ⟨row, hrow, by simp⟩

theorem deliver_credited {economy s : Economy} {ds : List Delivery}
    (hexists : ∀ d ∈ ds, d.env.referenceExists .attempt d.event.attemptId.text = true)
    (hfresh : ∀ d ∈ ds, economy.coins.hasKey d.event.reward.key = false)
    (hwallets : WithinCap economy.coins) (hcap : Along Economy.deliver CapNotReached economy ds)
    (hrun : exec Economy.deliver economy ds = some s) :
    WithinCap s.coins ∧ ∃ rows,
      s.coins.coinTransactions = economy.coins.coinTransactions ++ rows ∧ Credited ds rows := by
  -- event by event, from the first to the last
  induction ds using List.reverseRecOn generalizing s with
  | nil =>
    rw [exec_nil, Option.some.injEq] at hrun
    subst hrun
    exact ⟨hwallets, [], (List.append_nil _).symm, List.nodup_nil,
      fun _ h => absurd h List.not_mem_nil, fun _ h => absurd h List.not_mem_nil⟩
  | append_singleton ds d ih =>
    obtain ⟨hcap, hlast⟩ := along_snoc.mp hcap
    obtain ⟨m, hm, hstep⟩ := exec_snoc.mp hrun
    have hsame : onEvent m d = s := Option.some.inj hstep
    have hmem : d ∈ ds ++ [d] := List.mem_append_right ds (List.mem_singleton_self d)
    have hbefore : ∀ x ∈ ds, x ∈ ds ++ [d] := fun x hx => List.mem_append_left [d] hx
    obtain ⟨hwallets, rows, hrows, hcredited⟩ := ih (fun x hx => hexists x (hbefore x hx))
      (fun x hx => hfresh x (hbefore x hx)) hcap hm
    have horigin : ∀ row ∈ rows, ∃ x ∈ ds ++ [d], IsReward x.event row := by
      intro row hrow
      obtain ⟨x, hx, hreward⟩ := hcredited.origin row hrow
      exact ⟨x, hbefore x hx, hreward⟩
    rcases onEvent_cases (hexists d hmem) (hlast m hm) hwallets with ⟨hnone, hrewarded⟩ |
      ⟨-, hnew, hwallets', row, hreward, hledger⟩
    · rw [← hsame, hnone]
      refine ⟨hwallets, rows, hrows, hcredited.keys, horigin, ?_⟩
      intro x hx hscore
      rcases List.mem_append.mp hx with hx | hx
      · exact hcredited.earned x hx hscore
      · rw [List.mem_singleton.mp hx] at hscore ⊢
        exact mem_of_hasKey_append hrows (hfresh d hmem) (hrewarded hscore)
    · rw [hsame] at hwallets' hledger
      refine ⟨hwallets', rows ++ [row], ?_, ?_, ?_, ?_⟩
      · rw [hledger, hrows, List.append_assoc]
      · rw [List.map_append, List.map_singleton]
        refine List.nodup_append.mpr ⟨hcredited.keys, List.nodup_singleton _, ?_⟩
        intro k hk k' hk' he
        obtain ⟨old, hold, rfl⟩ := List.mem_map.mp hk
        rw [List.mem_singleton.mp hk', hreward.2.2.2.2] at he
        have htaken := hasKey_of_mem_append hrows hold
        rw [he, hnew] at htaken
        cases htaken
      · exact forall_mem_join horigin ⟨d, hmem, hreward⟩
      · intro x hx hscore
        rcases List.mem_append.mp hx with hx | hx
        · obtain ⟨old, hold, hkey⟩ := hcredited.earned x hx hscore
          exact ⟨old, List.mem_append_left [row] hold, hkey⟩
        · rw [List.mem_singleton.mp hx]
          exact ⟨row, List.mem_append_right rows (List.mem_singleton_self row),
            hreward.2.2.2.2⟩

section Counts

variable {ds : List Delivery} {rows : List CoinTransactionRow} {event : AttemptCompletedEvent}

theorem Credited.isRewardOf_iff (h : Credited ds rows) (hrow : row ∈ rows) :
    isRewardOf "QUIZ_COMPLETION_REWARD" event row = true ↔
      row.idempotencyKey = event.reward.key := by
  obtain ⟨d, -, hreason, huser, htype, href, hkey⟩ := h.origin row hrow
  rw [hkey, reward_key_eq_iff]
  simp [isRewardOf, hreason, huser, htype, href, Uuid.text_inj]

theorem Credited.countP_completion (h : Credited ds rows)
    (hearned : ∃ row ∈ rows, row.idempotencyKey = event.reward.key) :
    rows.countP (isRewardOf "QUIZ_COMPLETION_REWARD" event) = 1 := by
  have hcount : rows.countP (isRewardOf "QUIZ_COMPLETION_REWARD" event)
      = (rows.map (·.idempotencyKey)).count event.reward.key := by
    rw [List.count, List.countP_map]
    refine List.countP_congr ?_
    intro row hrow
    rw [h.isRewardOf_iff hrow]
    simp
  rw [hcount]
  refine List.count_eq_one_of_mem h.keys ?_
  obtain ⟨row, hrow, hkey⟩ := hearned
  exact List.mem_map.mpr ⟨row, hrow, hkey⟩

theorem Credited.countP_perfect (h : Credited ds rows) :
    rows.countP (isRewardOf "QUIZ_PERFECT_BONUS" event) = 0 := by
  refine List.countP_eq_zero.mpr ?_
  intro row hrow
  obtain ⟨d, -, hreason, -⟩ := h.origin row hrow
  simp [isRewardOf, hreason]

end Counts

/-- **Every earned reward is credited once, as long as nothing is perfect.** Whatever events are
delivered, in whatever order and however often, on days on which the cap is not reached, what each
attempt has earned is in the ledger exactly once if and only if no event has the perfect score. Of
the key this means: it tells two coin events apart unless they differ in their reason alone. -/
theorem rewards_credited_once_iff (economy s : Economy) (ds : List Delivery)
    (event event' : CoinEventInput) (user user' : Uuid) :
    (Deliverable economy ds → Along Economy.deliver CapNotReached economy ds →
      exec Economy.deliver economy ds = some s →
      ((∀ d ∈ ds, CreditedOnce (newRows economy s) d.event) ↔
        ∀ d ∈ ds, d.event.scorePercent ≠ perfectScore)) ∧
    (event.userId = user.text → event'.userId = user'.text →
      (((event.userId ≠ event'.userId ∨ event.reason ≠ event'.reason ∨
          event.referenceId ≠ event'.referenceId) →
            deriveIdempotencyKey event ≠ deriveIdempotencyKey event') ↔
        ¬ (event.userId = event'.userId ∧ event.source = event'.source ∧
          event.referenceId = event'.referenceId ∧ event.reason ≠ event'.reason))) := by
  constructor
  · intro hds hcap hrun
    obtain ⟨-, rows, hrows, hcredited⟩ :=
      deliver_credited hds.attempts hds.fresh hds.wallets hcap hrun
    have hnew : newRows economy s = rows := by
      rw [newRows, hrows, List.drop_left]
    rw [hnew]
    constructor
    · intro honce d hd hperfect
      have hone := (honce d hd).perfect hperfect
      rw [hcredited.countP_perfect] at hone
      cases hone
    · intro hplain d hd
      exact ⟨fun hscore => hcredited.countP_completion (hcredited.earned d hd hscore),
        fun hperfect => absurd hperfect (hplain d hd)⟩
  · intro huser huser'
    have hkey := deriveIdempotencyKey_eq_iff huser huser'
    constructor
    · rintro hdiffer ⟨hu, hs, hr, hreason⟩
      exact hdiffer (.inr (.inl hreason)) (hkey.mpr ⟨hu, hs, hr⟩)
    · intro hsame hdiffer hkeys
      obtain ⟨hu, hs, hr⟩ := hkey.mp hkeys
      rcases hdiffer with hne | hne | hne
      · exact hne hu
      · exact hsame ⟨hu, hs, hr, hne⟩
      · exact hne hr

instance (economy : Economy) (d : Delivery) : Decidable (CapNotReached economy d) :=
  inferInstanceAs (Decidable (_ < _))

/-- The `n`-th event to arrive: an attempt of a user with its score. -/
def delivery (n : Nat) (userId attemptId : Uuid) (scorePercent : Nat) : Delivery :=
  { event := ⟨userId, attemptId, scorePercent⟩, env := plainEnv, now := n, drawn := drawnIds n n,
    bonusNow := n, bonusDrawn := drawnIds (n + 1) n }

def halfRightTwice : List Delivery :=
  [delivery 0 1 11 5000, delivery 2 1 12 7500, delivery 4 1 11 5000]

theorem rewards_credited_once_iff_half_right :
    Deliverable Economy.empty halfRightTwice ∧
      ∃ s, exec Economy.deliver Economy.empty halfRightTwice = some s ∧
        ∀ d ∈ halfRightTwice, CreditedOnce (newRows Economy.empty s) d.event := by
  have hexists : ∀ d ∈ halfRightTwice,
      d.env.referenceExists .attempt d.event.attemptId.text = true := by
    simp [halfRightTwice, delivery, plainEnv]
  have hds : Deliverable Economy.empty halfRightTwice :=
    ⟨hexists, fun _ _ => rfl, fun _ h => absurd h List.not_mem_nil⟩
  have hcap : Along Economy.deliver CapNotReached Economy.empty halfRightTwice := by decide +kernel
  obtain ⟨s, hs⟩ : ∃ s, exec Economy.deliver Economy.empty halfRightTwice = some s := ⟨_, rfl⟩
  refine ⟨hds, s, hs, ((rewards_credited_once_iff _ s halfRightTwice (completionReward "u" "a")
    (completionReward "u" "a") 1 1).1 hds hcap hs).mpr ?_⟩
  decide

def onePerfect : List Delivery := [delivery 0 1 11 perfectScore]

/-- The bonus of a perfect attempt is never credited: it comes with the key of the reward. -/
theorem perfect_bonus_lost :
    (∃ s, exec Economy.deliver Economy.empty onePerfect = some s ∧
      ¬ ∀ d ∈ onePerfect, CreditedOnce (newRows Economy.empty s) d.event) ∧
    (completionReward "u" "a").reason ≠ (perfectBonus "u" "a").reason ∧
      deriveIdempotencyKey (completionReward "u" "a")
        = deriveIdempotencyKey (perfectBonus "u" "a") := by
  refine ⟨?_, by decide, rfl⟩
  refine exists_of_read
    (fun s => (newRows Economy.empty s).countP (isRewardOf "QUIZ_PERFECT_BONUS" ⟨1, 11, perfectScore⟩))
    0 (by decide +kernel) fun s hs hcount => ?_
  intro honce
  have hone := (honce (delivery 0 1 11 perfectScore) (List.mem_singleton_self _)).perfect rfl
  have hone : (newRows Economy.empty s).countP
    (isRewardOf "QUIZ_PERFECT_BONUS" ⟨1, 11, perfectScore⟩) = 1 := hone
  rw [hcount] at hone
  cases hone

end QuizBackend.Coins
