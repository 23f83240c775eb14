import QuizBackend.Coins.Caps

/-!
# Too few coins

`processSpend` has one error for a wallet that does not hold what is asked for, and throws it
whenever the debit statement of the repository returns no row. That happens for three reasons: there
is no wallet, it holds too little, or the idempotency key stands in the ledger already. In the last
case the user may have the coins and is told that they are missing; the credit statement tells the
conflict apart by an error of its own.

`applySpendInTx_cases` lists what the statement can do, and everything else is read off it. The
debit runs later than the guards of `processSpend`, on the tables as other requests have left them
by then, so the two have their own environment and tables.
-/

namespace QuizBackend.Coins

open Lib Outbox CoinSystem

/-! ## The debit and its answer -/

def insufficientCoinsError (userId : String) (currentBalance required : Int) : String :=
  s!"INSUFFICIENT_COINS: user {userId} has {currentBalance} coins; " ++ s!"{required} required"

def debit (env : CoinEnv) (economy : Economy) (input : CoinSpendInput) (now : Int)
    (drawn : Drawn) : Except String CoinEventResult × Economy :=
  match economy.transaction (commitSpend env input now drawn) with
  | (.error e, economy') => (.error (spendError economy' input e), economy')
  | (.ok result, economy') =>
    (.ok ⟨input.userId, -input.amount, result.wallet.balance, some result.transactionId⟩, economy')

def lacksFunds (economy : Economy) (input : CoinSpendInput) : Bool :=
  (economy.coins.userWallets.find? input.userId).all fun w => w.balance < input.amount

/-- What is to hold of a debit: the error for too few coins is thrown exactly when they are too few,
and with enough of them the spend returns and has taken the amount. -/
structure FundsReported (env : CoinEnv) (economy : Economy) (input : CoinSpendInput) (now : Int)
    (drawn : Drawn) : Prop where
  insufficient :
    (∃ currentBalance, (debit env economy input now drawn).1
      = .error (insufficientCoinsError input.userId currentBalance input.amount)) ↔
      lacksFunds economy input = true
  otherwise : lacksFunds economy input = false → ∃ result,
    (debit env economy input now drawn).1 = .ok result ∧
      (debit env economy input now drawn).2.coins.balance input.userId
        = economy.coins.balance input.userId - input.amount

/-- What a spend needs besides the coins: a reason the ledger knows, a key that is free, and for a
flair slot a badge that is still owned. -/
structure Payable (env : CoinEnv) (economy : Economy) (input : CoinSpendInput) : Prop where
  reason : input.reason ∈ coinReason
  fresh : economy.coins.hasKey input.idempotencyKey = false
  owned : input.category = .flair → (env.ownedBadge input.userBadgeId input.userId).isSome = true

/-- The coins decide: the amount is an `integer` of the database, and with enough coins the spend is
payable. -/
def FundsDecide (env : CoinEnv) (economy : Economy) (input : CoinSpendInput) : Prop :=
  IsInt4 input.amount ∧ (lacksFunds economy input = false → Payable env economy input)

theorem processSpend_eq_debit {env : CoinEnv} {economy : Economy} {input : CoinSpendInput}
    {now : Int} {check : Check} (drawn : Drawn)
    (h : prepareSpend env economy input now = .ok check) :
    processSpend env economy input now drawn = debit env economy input now drawn := by
  unfold processSpend
  rw [h]
  rfl

theorem amount_pos_of_prepareSpend {env : CoinEnv} {economy : Economy} {input : CoinSpendInput}
    {now : Int} {check : Check} (h : prepareSpend env economy input now = .ok check) :
    0 < input.amount := by
  obtain ⟨⟨⟩, hvalid, -⟩ := bind_eq_ok.mp h
  exact amount_pos_of_validateInput hvalid

theorem lacksFunds_iff {economy : Economy} {input : CoinSpendInput} (hpos : 0 < input.amount) :
    lacksFunds economy input = true ↔ economy.coins.balance input.userId < input.amount := by
  unfold lacksFunds
  cases hw : economy.coins.userWallets.find? input.userId with
  | none => simp [balance_of_none hw, hpos]
  | some w => simp [balance_of_find? hw]

/-! ## What the debit statement can do -/

theorem applySpendInTx_cases (db : CoinDb) {params : ApplySpendParams} (transactionId : String)
    (hpos : 0 < params.cost) :
    (¬ IsInt4 params.cost ∧
      applySpendInTx db params transactionId = .error "integer out of range") ∨
    (IsInt4 params.cost ∧ db.balance params.userId < params.cost ∧
      applySpendInTx db params transactionId = .ok none) ∨
    (IsInt4 params.cost ∧ params.cost ≤ db.balance params.userId ∧ params.reason ∉ coinReason ∧
      applySpendInTx db params transactionId
        = .error s!"invalid input value for enum coin_reason: {params.reason}") ∨
    (IsInt4 params.cost ∧ params.cost ≤ db.balance params.userId ∧ params.reason ∈ coinReason ∧
      db.hasKey params.idempotencyKey = true ∧
      applySpendInTx db params transactionId = .ok none) ∨
    (SpendAccepted db params ∧ ∃ result db',
      applySpendInTx db params transactionId = .ok (some (result, db')) ∧
      db'.balance params.userId = db.balance params.userId - params.cost) := by
  by_cases hint : IsInt4 params.cost
  swap
  · refine .inl ⟨hint, ?_⟩
    simp only [applySpendInTx, Int.not_le.mpr hpos, hint, not_false_eq_true, if_true, if_false,
      bind, Except.bind, pure, Except.pure, throw, throwThe, MonadExceptOf.throw]
  cases hw : db.userWallets.find? params.userId with
  | none =>
    refine .inr (.inl ⟨hint, by rw [balance_of_none hw]; exact hpos, ?_⟩)
    simp only [applySpendInTx, Int.not_le.mpr hpos, hint, not_true_eq_false, if_false, hw, bind,
      Except.bind, pure, Except.pure]
  | some w =>
    by_cases hfunds : w.balance < params.cost
    · refine .inr (.inl ⟨hint, by rw [balance_of_find? hw]; exact hfunds, ?_⟩)
      simp only [applySpendInTx, Int.not_le.mpr hpos, hint, not_true_eq_false, if_false, hw, hfunds,
        if_true, bind, Except.bind, pure, Except.pure]
    have hle : params.cost ≤ db.balance params.userId := by
      rw [balance_of_find? hw]
      exact Int.not_lt.mp hfunds
    by_cases hreason : params.reason ∈ coinReason
    swap
    · refine .inr (.inr (.inl ⟨hint, hle, hreason, ?_⟩))
      simp only [applySpendInTx, Int.not_le.mpr hpos, hint, not_true_eq_false, if_false, hw, hfunds,
        insertLedger, hreason, not_false_eq_true, if_true, bind, Except.bind, pure, Except.pure]
    cases hkey : db.hasKey params.idempotencyKey with
    | true =>
      refine .inr (.inr (.inr (.inl ⟨hint, hle, hreason, rfl, ?_⟩)))
      have hamount : -params.cost ≠ 0 := by omega
      have hafter : 0 ≤ max 0 (w.balance - params.cost) := Int.le_max_left ..
      simp only [applySpendInTx, Int.not_le.mpr hpos, hint, not_true_eq_false, if_false, hw, hfunds,
        bind, Except.bind, pure, Except.pure]
      rw [insertLedger_eq db (by exact hreason) (by exact hamount) (by exact hafter),
        if_pos (by exact hkey)]
      rfl
    | false =>
      have haccepted : SpendAccepted db params := ⟨hpos, hint, hle, hreason, hkey⟩
      obtain ⟨result, db', hspend, hposted⟩ := applySpendInTx_spec transactionId haccepted
      exact .inr (.inr (.inr (.inr ⟨haccepted, result, db', hspend, hposted.balance⟩)))

/-! ## What the transaction makes of it -/

variable {e : String} {r : Request} {dailyCapPerAdmin : Int}

section Debit

variable {env : CoinEnv} {economy : Economy} {input : CoinSpendInput} {now : Int} {drawn : Drawn}

theorem debit_of_error (h : commitSpend env input now drawn economy = .error e) :
    debit env economy input now drawn = (.error (spendError economy input e), economy) := by
  simp only [debit, transaction_of_error h]

theorem commitSpend_of_error
    (h : applySpendInTx economy.coins (input.params now) drawn.transactionId = .error e) :
    commitSpend env input now drawn economy = .error e := by
  simp only [commitSpend, h, bind, Except.bind]

theorem spendError_deferred : spendError economy input "INSUFFICIENT_COINS_DEFERRED"
    = insufficientCoinsError input.userId (economy.coins.balance input.userId) input.amount := by
  unfold spendError insufficientCoinsError
  exact if_pos rfl

theorem debit_of_none
    (h : applySpendInTx economy.coins (input.params now) drawn.transactionId = .ok none) :
    (debit env economy input now drawn).1 = .error
      (insufficientCoinsError input.userId (economy.coins.balance input.userId) input.amount) := by
  have hcommit : commitSpend env input now drawn economy
      = .error "INSUFFICIENT_COINS_DEFERRED" := by
    simp only [commitSpend, h]
    rfl
  rw [debit_of_error hcommit, spendError_deferred]

theorem debit_of_some {result : ApplyDeltaResult} {coins : CoinDb}
    (h : applySpendInTx economy.coins (input.params now) drawn.transactionId
      = .ok (some (result, coins)))
    (howned : input.category = .flair →
      (env.ownedBadge input.userBadgeId input.userId).isSome = true) :
    ∃ answer economy', debit env economy input now drawn = (.ok answer, economy') ∧
      economy'.coins = coins := by
  let outbox := insertEvent economy.outbox (coinSpentEvent input now result drawn)
  obtain ⟨economy', hwrite⟩ : ∃ economy',
      writePurchase env { economy with coins, outbox } input drawn = .ok economy' := by
    unfold writePurchase
    cases hcat : input.category with
    | tip | suppress | admin => exact ⟨_, rfl⟩
    | flair =>
      obtain ⟨badge, hbadge⟩ := Option.isSome_iff_exists.mp (howned hcat)
      simp only [writeFlairSlotInTx, hbadge]
      exact ⟨_, rfl⟩
  have hcommit : commitSpend env input now drawn economy = .ok (result, economy') := by
    simp only [commitSpend, h, bind, Except.bind, pure, Except.pure]
    rw [hwrite]
  refine ⟨⟨input.userId, -input.amount, result.wallet.balance, some result.transactionId⟩, economy',
    ?_, writePurchase_coins hwrite⟩
  simp only [debit, Economy.transaction, hcommit]

theorem commitSpend_of_unowned {result : ApplyDeltaResult} {coins : CoinDb}
    (h : applySpendInTx economy.coins (input.params now) drawn.transactionId
      = .ok (some (result, coins)))
    (hcat : input.category = .flair)
    (hnone : env.ownedBadge input.userBadgeId input.userId = none) :
    commitSpend env input now drawn economy = .error
      (s!"CoinRepository.writeFlairSlotInTx: userBadgeId {input.userBadgeId} not owned by "
        ++ input.userId) := by
  simp only [commitSpend, h, writePurchase, hcat, writeFlairSlotInTx, hnone, bind, Except.bind]

/-! ## Which error is which -/

theorem head?_insufficientCoinsError (userId : String) (currentBalance required : Int) :
    (insufficientCoinsError userId currentBalance required).toList.head? = some 'I' := by
  have htext : (toString "INSUFFICIENT_COINS: user ").toList
      = 'I' :: "NSUFFICIENT_COINS: user ".toList := by decide +kernel
  unfold insufficientCoinsError
  simp only [String.toList_append]
  rw [htext]
  simp only [List.cons_append, List.head?_cons]

theorem not_insufficient_of_error (h : commitSpend env input now drawn economy = .error e)
    (hhead : e.toList.head? ≠ some 'I') :
    ¬ ∃ currentBalance, (debit env economy input now drawn).1
      = .error (insufficientCoinsError input.userId currentBalance input.amount) := by
  intro ⟨currentBalance, heq⟩
  have hne : e ≠ "INSUFFICIENT_COINS_DEFERRED" := by
    intro he
    rw [he] at hhead
    exact hhead (by decide +kernel)
  have hsame : spendError economy input e = e := if_neg hne
  rw [debit_of_error h, hsame] at heq
  rw [Except.error.inj heq, head?_insufficientCoinsError] at hhead
  exact hhead rfl

theorem not_reported_of_error (h : commitSpend env input now drawn economy = .error e)
    (hfunds : lacksFunds economy input = false) : ¬ FundsReported env economy input now drawn := by
  intro hrep
  obtain ⟨result, hok, -⟩ := hrep.otherwise hfunds
  rw [debit_of_error h] at hok
  cases hok

theorem fundsReported_iff (env : CoinEnv) (economy : Economy) {input : CoinSpendInput} (now : Int)
    (drawn : Drawn) (hpos : 0 < input.amount) :
    FundsReported env economy input now drawn ↔ FundsDecide env economy input := by
  have hfunds : lacksFunds economy input = true ↔ _ := lacksFunds_iff hpos
  have hcost : 0 < (input.params now).cost := hpos
  rcases applySpendInTx_cases economy.coins drawn.transactionId hcost with
    ⟨hint, happly⟩ | ⟨hint, hlow, happly⟩ | ⟨hint, hle, hreason, happly⟩ |
    ⟨hint, hle, -, hkey, happly⟩ | ⟨hacc, result, coins, happly, hbalance⟩
  · -- out of range: an error of the database, whether there are enough coins or not
    have hcommit : commitSpend env input now drawn economy = _ := commitSpend_of_error happly
    refine iff_of_false ?_ fun h => hint h.1
    intro hrep
    cases hlacks : lacksFunds economy input with
    | true =>
      exact not_insufficient_of_error hcommit (by decide +kernel) (hrep.insufficient.mpr hlacks)
    | false => exact not_reported_of_error hcommit hlacks hrep
  · -- too few
    have hlacks : lacksFunds economy input = true := hfunds.mpr hlow
    refine iff_of_true ⟨iff_of_true ⟨_, debit_of_none happly⟩ hlacks, ?_⟩ ⟨hint, ?_⟩
    · intro h
      rw [hlacks] at h
      cases h
    · intro h
      rw [hlacks] at h
      cases h
  · -- a reason outside the enum
    have hlacks : lacksFunds economy input = false := by
      rw [← Bool.not_eq_true, hfunds]
      exact Int.not_lt.mpr hle
    refine iff_of_false ?_ fun h => hreason (h.2 hlacks).reason
    exact not_reported_of_error (commitSpend_of_error happly) hlacks
  · -- the key is taken: too few coins, says the answer
    have hlacks : lacksFunds economy input = false := by
      rw [← Bool.not_eq_true, hfunds]
      exact Int.not_lt.mpr hle
    refine iff_of_false ?_ ?_
    · intro hrep
      have h := hrep.insufficient.mp ⟨_, debit_of_none happly⟩
      rw [hlacks] at h
      cases h
    · intro h
      have hfresh := (h.2 hlacks).fresh
      rw [show economy.coins.hasKey input.idempotencyKey = true from hkey] at hfresh
      cases hfresh
  · have hlacks : lacksFunds economy input = false := by
      rw [← Bool.not_eq_true, hfunds]
      exact Int.not_lt.mpr hacc.funds
    by_cases howned : input.category = .flair →
      (env.ownedBadge input.userBadgeId input.userId).isSome = true
    · obtain ⟨answer, economy', hdebit, hcoins⟩ := debit_of_some happly howned
      refine iff_of_true ⟨iff_of_false ?_ ?_, ?_⟩ ⟨hacc.cost, fun _ => ⟨hacc.reason, hacc.fresh, howned⟩⟩
      · intro ⟨currentBalance, h⟩
        rw [hdebit] at h
        cases h
      · rw [hlacks]
        exact Bool.false_ne_true
      · intro _
        rw [hdebit, hcoins]
        exact ⟨answer, rfl, hbalance⟩
    · -- the badge is gone since the guards have run
      refine iff_of_false ?_ fun h => howned (h.2 hlacks).owned
      obtain ⟨hcat, hnone⟩ := Classical.not_imp.mp howned
      exact not_reported_of_error
        (commitSpend_of_unowned happly hcat (Option.not_isSome_iff_eq_none.mp hnone)) hlacks

end Debit

/-! ## In a run -/

def Request.Prepared (r : Request) : Prop :=
  ∀ input now, r.work = .spend input now → ∃ env economy check,
    prepareSpend env economy input now = .ok check

theorem eventRequest_prepared {env : CoinEnv} {economy : Economy} {event : CoinEventInput}
    {now : Int} (h : eventRequest env economy event now = .ok (some r)) : r.Prepared := by
  obtain ⟨x, -, hx⟩ := map_eq_ok.mp h
  obtain ⟨y, -, rfl⟩ := Option.map_eq_some_iff.mp hx
  intro input now hwork
  cases hwork

theorem spendRequest_prepared {env : CoinEnv} {economy : Economy} {input : CoinSpendInput}
    {now : Int} (h : spendRequest env economy input now = .ok (some r)) : r.Prepared := by
  obtain ⟨check, hprepare, hr⟩ := map_eq_ok.mp h
  cases hr
  intro input' now' hwork
  cases hwork
  exact ⟨env, economy, check, hprepare⟩

theorem adjustRequest_prepared {env : CoinEnv} {economy : Economy} {adminUserId : String}
    {body : CoinAdminAdjustRequest} {checkedAt now : Int}
    (h : adjustRequest dailyCapPerAdmin env economy adminUserId body checkedAt now = .ok (some r)) :
    r.Prepared := by
  unfold adjustRequest at h
  obtain ⟨check, -, h⟩ := bind_eq_ok.mp h
  split at h
  · obtain ⟨x, -, h⟩ := bind_eq_ok.mp h
    obtain ⟨y, -, rfl⟩ := Option.map_eq_some_iff.mp (pure_eq_ok.mp h)
    intro input now hwork
    cases hwork
  · split at h
    · exact spendRequest_prepared h
    · exact absurd h throw_ne_ok

theorem CoinSystem.step_prepared {s s' : CoinSystem} {a : Action} (h : ∀ r ∈ s.requests, r.Prepared)
    (hstep : s.step dailyCapPerAdmin a = some s') : ∀ r ∈ s'.requests, r.Prepared := by
  rcases step_cases hstep with ⟨event, now, env, -, -, rfl⟩ |
    ⟨input, now, env, -, -, -, rfl⟩ | ⟨admin, body, checkedAt, now, env, -, -, rfl⟩ |
    ⟨i, env, drawn, r, -, -, -, hrequests, -⟩
  · exact forall_requests_push h fun r hr => eventRequest_prepared hr
  · exact forall_requests_push h fun r hr => spendRequest_prepared hr
  · exact forall_requests_push h fun r hr => adjustRequest_prepared hr
  · intro x hx
    rw [hrequests] at hx
    exact h x (List.mem_of_mem_eraseIdx hx)

theorem prepared_of_exec {acts : List Action} {s : CoinSystem}
    (hs : exec (step dailyCapPerAdmin) start acts = some s) :
    ∀ r ∈ s.requests, r.Prepared :=
  exec_invariant (I := fun s : CoinSystem => ∀ r ∈ s.requests, r.Prepared)
    (fun _ _ _ h hstep => step_prepared h hstep) hs fun _ h => absurd h List.not_mem_nil

/-- **Insufficient funds is reported exactly when funds are insufficient**, for a spend that passes
its guards, if and only if the coins decide: whatever the tables are at the debit, and so for every
spend that waits in any run, whatever other requests have done in between. -/
theorem funds_reported_iff_funds_decide (dailyCapPerAdmin : Int) :
    (∀ env₀ economy₀ input now check, prepareSpend env₀ economy₀ input now = .ok check →
      ∀ env economy drawn,
        FundsReported env economy input now drawn ↔ FundsDecide env economy input) ∧
    (∀ acts s, exec (CoinSystem.step dailyCapPerAdmin) CoinSystem.start acts = some s →
      ∀ r ∈ s.requests, ∀ input now, r.work = .spend input now → ∀ env drawn,
        FundsReported env s.economy input now drawn ↔ FundsDecide env s.economy input) := by
  constructor
  · intro env₀ economy₀ input now check hprepare env economy drawn
    exact fundsReported_iff env economy now drawn (amount_pos_of_prepareSpend hprepare)
  · intro acts s hs r hr input now hwork env drawn
    obtain ⟨env₀, economy₀, check, hprepare⟩ := prepared_of_exec hs r hr input now hwork
    exact fundsReported_iff env s.economy now drawn (amount_pos_of_prepareSpend hprepare)

def tipOnce : List Action :=
  [.event { completionReward "u1" "s1" with
      source := .streak, amount := 150, reason := "STREAK_MILESTONE_REWARD" } 0 plainEnv,
   .commit 0 plainEnv (drawnIds 0 0),
   .spend (authorTip "k1") 1 plainEnv, .commit 0 plainEnv (drawnIds 1 1)]

def tipAgain : List Action := tipOnce ++ [.spend (authorTip "k1") 2 plainEnv]

theorem funds_reported_iff_funds_decide_again :
    ∃ s r, exec (CoinSystem.step 10000) CoinSystem.start tipAgain = some s ∧
      r ∈ s.requests ∧ r.work = .spend (authorTip "k1") 2 ∧
      (FundsReported plainEnv s.economy (authorTip "k1") 2 (drawnIds 2 2) ↔
        FundsDecide plainEnv s.economy (authorTip "k1")) ∧
      prepareSpend plainEnv s.economy (authorTip "k2") 3 = .ok (.tips 1) ∧
      (FundsReported plainEnv s.economy (authorTip "k2") 3 (drawnIds 3 3) ↔
        FundsDecide plainEnv s.economy (authorTip "k2")) := by
  obtain ⟨s, hs, hstate⟩ : ∃ s, exec (CoinSystem.step 10000) CoinSystem.start tipAgain = some s ∧
      (s.requests, prepareSpend plainEnv s.economy (authorTip "k2") 3)
        = ([⟨.spend (authorTip "k1") 2, .tips 1⟩], .ok (.tips 1)) :=
    Option.map_eq_some_iff.mp (by decide +kernel)
  obtain ⟨hrequests, hprepare⟩ := Prod.mk.inj hstate
  have hr : ⟨.spend (authorTip "k1") 2, .tips 1⟩ ∈ s.requests := by
    rw [hrequests]
    exact List.mem_singleton_self _
  obtain ⟨hguards, hruns⟩ := funds_reported_iff_funds_decide 10000
  exact ⟨s, _, hs, hr, rfl, hruns tipAgain s hs _ hr _ _ rfl plainEnv (drawnIds 2 2), hprepare,
    hguards _ _ _ _ _ hprepare plainEnv s.economy (drawnIds 3 3)⟩

/-- A tip sent again under its key is answered with too few coins, and the user has 125 of them. -/
theorem tip_again_reports_insufficient :
    ∃ s, exec (CoinSystem.step 10000) CoinSystem.start tipOnce = some s ∧
      prepareSpend plainEnv s.economy (authorTip "k1") 2 = .ok (.tips 1) ∧
      lacksFunds s.economy (authorTip "k1") = false ∧
      (processSpend plainEnv s.economy (authorTip "k1") 2 (drawnIds 2 2)).1
        = .error "INSUFFICIENT_COINS: user u1 has 125 coins; 25 required" ∧
      ¬ FundsReported plainEnv s.economy (authorTip "k1") 2 (drawnIds 2 2) := by
  refine exists_of_read
    (fun s => (prepareSpend plainEnv s.economy (authorTip "k1") 2,
      lacksFunds s.economy (authorTip "k1"),
      (processSpend plainEnv s.economy (authorTip "k1") 2 (drawnIds 2 2)).1))
    (.ok (.tips 1), false, .error "INSUFFICIENT_COINS: user u1 has 125 coins; 25 required")
    (by decide +kernel) fun s hs hstate => ?_
  simp only [Prod.mk.injEq] at hstate
  obtain ⟨hprepare, hlacks, hanswer⟩ := hstate
  refine ⟨hprepare, hlacks, hanswer, ?_⟩
  intro hrep
  obtain ⟨result, hok, -⟩ := hrep.otherwise hlacks
  rw [← processSpend_eq_debit _ hprepare, hanswer] at hok
  cases hok

end QuizBackend.Coins
