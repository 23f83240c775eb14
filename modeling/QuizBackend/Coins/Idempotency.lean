import QuizBackend.Coins.Services
import QuizBackend.Lib.Uuid

/-!
# Coin requests side by side

Requests interleave where their transaction begins: everything before it only reads. A state of the
system is the tables with the requests that have passed their checks and wait for their transaction;
a step is a request's checks, or a transaction.

The ledger statement changes a balance before it can notice that its key is taken, and the two
services notice it differently: the credit by an exception of its own, the debit by the `null` that
also means too few coins. Either way the transaction throws, and `Economy.transaction` is all that is
needed to see that nothing of it stays. A key is therefore used once, whatever the order of the
requests.
-/

namespace QuizBackend.Coins

open Lib

/-! ## The system -/

inductive Work where
  | credit (params : ApplyDeltaParams)
  | spend (input : CoinSpendInput) (now : Int)
  deriving DecidableEq

structure Request where
  work : Work
  check : Check
  deriving DecidableEq

def Work.key : Work → String
  | .credit params => params.idempotencyKey
  | .spend input _ => input.idempotencyKey

/-- The tables and the requests under way. `capped` are the ledger rows credited under the daily
cap; the code does not mark them. -/
structure CoinSystem where
  economy : Economy
  requests : List Request
  capped : List CoinTransactionRow

open CoinSystem

def CoinSystem.start : CoinSystem := ⟨Economy.empty, [], []⟩

/-- The reasons the listeners pass to `processCoinEvent`. -/
def rewardReasons : List String :=
  ["QUIZ_COMPLETION_REWARD", "QUIZ_PERFECT_BONUS", "DAILY_CHALLENGE_REWARD",
   "STREAK_MILESTONE_REWARD", "BADGE_REWARD", "TOURNAMENT_PLACEMENT_REWARD"]

/-- The reason `tipUser`, `purchaseFlair` and `suppressRecommendedQuiz` pass with their category. -/
def CoinSpendCategory.reason : CoinSpendCategory → String
  | .tip => "TIP_SENT"
  | .flair => "FLAIR_PURCHASED"
  | .suppress => "SUPPRESS_RECOMMENDED_PURCHASED"
  | .admin => "ADMIN_ADJUSTMENT"

/-- A request comes in and makes its checks, or the `i`-th of those under way has its transaction. -/
inductive Action where
  | event (event : CoinEventInput) (now : Int) (env : CoinEnv)
  | spend (input : CoinSpendInput) (now : Int) (env : CoinEnv)
  | adjust (adminUserId : Uuid) (body : CoinAdminAdjustRequest) (checkedAt now : Int)
      (env : CoinEnv)
  | commit (i : Nat) (env : CoinEnv) (drawn : Drawn)

def Work.run (env : CoinEnv) (drawn : Drawn) (economy : Economy) : Work → Economy
  | .credit params => (economy.transaction (commitCoinEvent params drawn)).2
  | .spend input now => (economy.transaction (commitSpend env input now drawn)).2

def newRows (before after : Economy) : List CoinTransactionRow :=
  after.coins.coinTransactions.drop before.coins.coinTransactions.length

/-- A request goes on to its transaction; one that its checks turn away is over. -/
def CoinSystem.push (s : CoinSystem) : Except String (Option Request) → CoinSystem
  | .ok (some r) => { s with requests := s.requests ++ [r] }
  | _ => s

def eventRequest (env : CoinEnv) (economy : Economy) (event : CoinEventInput) (now : Int) :
    Except String (Option Request) :=
  (prepareCoinEvent env economy.coins event now).map fun prepared =>
    prepared.map fun x => ⟨.credit x.1, x.2⟩

def spendRequest (env : CoinEnv) (economy : Economy) (input : CoinSpendInput) (now : Int) :
    Except String (Option Request) :=
  (prepareSpend env economy input now).map fun check => some ⟨.spend input now, check⟩

/-- The request `adminAdjust` makes: its own check comes first, and the service it then calls has
none. -/
def adjustRequest (dailyCapPerAdmin : Int) (env : CoinEnv) (economy : Economy)
    (adminUserId : String) (body : CoinAdminAdjustRequest) (checkedAt now : Int) :
    Except String (Option Request) := do
  let check ← checkAdjust dailyCapPerAdmin economy.coins adminUserId body checkedAt
  if body.amount > 0 then
    let prepared ← prepareCoinEvent env economy.coins (adjustEvent adminUserId body) now
    return prepared.map fun x => ⟨.credit x.1, check⟩
  else if body.amount < 0 then
    spendRequest env economy (adjustSpend adminUserId body) now
  else
    throw (s!"COIN_ADMIN_ADJUSTMENT_REASON_REQUIRED: admin {adminUserId} must supply a "
      ++ "non-empty reason")

/-- One step. The listeners and the application service pass the reasons they pass, and the clock
does not go back inside a request. -/
def CoinSystem.step (dailyCapPerAdmin : Int) (s : CoinSystem) : Action → Option CoinSystem
  | .event event now env =>
    if event.reason ∈ rewardReasons then some (s.push (eventRequest env s.economy event now))
    else none
  | .spend input now env =>
    if input.reason = input.category.reason ∧ input.category ≠ .admin then
      some (s.push (spendRequest env s.economy input now))
    else none
  | .adjust adminUserId body checkedAt now env =>
    if checkedAt ≤ now then
      some (s.push
        (adjustRequest dailyCapPerAdmin env s.economy adminUserId.text body checkedAt now))
    else none
  | .commit i env drawn =>
    match s.requests[i]? with
    | none => none
    | some r =>
      let economy := r.work.run env drawn s.economy
      some
        { economy, requests := s.requests.eraseIdx i,
          capped := match r.check with
            | .earnings _ => s.capped ++ newRows s.economy economy
            | _ => s.capped }

/-! ## A taken key -/

variable {economy : Economy} {env : CoinEnv}

theorem transaction_of_error {α : Type} {body : Economy → Except String (α × Economy)} {e : String}
    (h : body economy = .error e) : economy.transaction body = (.error e, economy) := by
  simp only [Economy.transaction, h]

theorem commitCoinEvent_of_hasKey {params : ApplyDeltaParams} (drawn : Drawn)
    (h : economy.coins.hasKey params.idempotencyKey = true) :
    ∃ e, commitCoinEvent params drawn economy = .error e := by
  cases hcommit : commitCoinEvent params drawn economy with
  | error e => exact ⟨e, rfl⟩
  | ok x =>
    obtain ⟨-, -, hfresh⟩ := commitCoinEvent_row hcommit
    rw [h] at hfresh
    cases hfresh

theorem commitSpend_of_hasKey {input : CoinSpendInput} (env : CoinEnv) (now : Int) (drawn : Drawn)
    (h : economy.coins.hasKey input.idempotencyKey = true) :
    ∃ e, commitSpend env input now drawn economy = .error e := by
  cases hcommit : commitSpend env input now drawn economy with
  | error e => exact ⟨e, rfl⟩
  | ok x =>
    obtain ⟨-, -, hfresh⟩ := commitSpend_row hcommit
    rw [h] at hfresh
    cases hfresh

theorem Work.run_of_hasKey {w : Work} (env : CoinEnv) (drawn : Drawn)
    (h : economy.coins.hasKey w.key = true) : w.run env drawn economy = economy := by
  cases w with
  | credit params =>
    obtain ⟨e, he⟩ := commitCoinEvent_of_hasKey drawn h
    rw [Work.run, transaction_of_error he]
  | spend input now =>
    obtain ⟨e, he⟩ := commitSpend_of_hasKey env now drawn h
    rw [Work.run, transaction_of_error he]

theorem prepareCoinEvent_params {db : CoinDb} {event : CoinEventInput} {now : Int}
    {params : ApplyDeltaParams} {check : Check}
    (h : prepareCoinEvent env db event now = .ok (some (params, check))) :
    validateEvent event = .ok () ∧ (computeAppliedDelta db event now).1 ≠ 0 ∧
      params = event.params (computeAppliedDelta db event now).1 now ∧
      check = (computeAppliedDelta db event now).2 := by
  unfold prepareCoinEvent at h
  obtain ⟨⟨⟩, hvalid, h⟩ := bind_eq_ok.mp h
  obtain ⟨-, -, h⟩ := bind_eq_ok.mp h
  simp only at h
  split at h
  · cases h
  · next hne =>
    simp only [pure_eq_ok, Option.some.injEq, Prod.mk.injEq] at h
    exact ⟨hvalid, hne, h.1.symm, h.2.symm⟩

theorem processCoinEvent_of_hasKey {event : CoinEventInput} (now : Int) (drawn : Drawn)
    (h : economy.coins.hasKey event.key = true) :
    (processCoinEvent env economy event now drawn).2 = economy := by
  unfold processCoinEvent
  split
  · rfl
  · rfl
  · next params check hprepare =>
    obtain ⟨-, -, hparams, -⟩ := prepareCoinEvent_params hprepare
    have hkey : economy.coins.hasKey params.idempotencyKey = true := by
      rw [hparams]
      exact h
    obtain ⟨e, he⟩ := commitCoinEvent_of_hasKey drawn hkey
    rw [transaction_of_error he]

theorem processSpend_of_hasKey {input : CoinSpendInput} (now : Int) (drawn : Drawn)
    (h : economy.coins.hasKey input.idempotencyKey = true) :
    (processSpend env economy input now drawn).2 = economy := by
  unfold processSpend
  split
  · rfl
  · obtain ⟨e, he⟩ := commitSpend_of_hasKey env now drawn h
    rw [transaction_of_error he]

/-! ## What a step does to the ledger -/

def Work.row (w : Work) (transactionId : String) (balanceAfter : Int) : CoinTransactionRow :=
  match w with
  | .credit params => params.row transactionId balanceAfter
  | .spend input now => (input.params now).row transactionId balanceAfter

theorem Work.run_cases (w : Work) (env : CoinEnv) (drawn : Drawn) (economy : Economy) :
    w.run env drawn economy = economy ∨
      ∃ balanceAfter, (w.run env drawn economy).coins.coinTransactions
          = economy.coins.coinTransactions ++ [w.row drawn.transactionId balanceAfter] ∧
        economy.coins.hasKey w.key = false := by
  cases w with
  | credit params =>
    cases hcommit : commitCoinEvent params drawn economy with
    | error e => exact .inl (by rw [Work.run, transaction_of_error hcommit])
    | ok x =>
      refine .inr ?_
      simp only [Work.run, Economy.transaction, hcommit]
      exact commitCoinEvent_row hcommit
  | spend input now =>
    cases hcommit : commitSpend env input now drawn economy with
    | error e => exact .inl (by rw [Work.run, transaction_of_error hcommit])
    | ok x =>
      refine .inr ?_
      simp only [Work.run, Economy.transaction, hcommit]
      exact commitSpend_row hcommit

@[simp] theorem CoinSystem.push_economy (s : CoinSystem) (x : Except String (Option Request)) :
    (s.push x).economy = s.economy := by
  unfold push
  split <;> rfl

@[simp] theorem CoinSystem.push_capped (s : CoinSystem) (x : Except String (Option Request)) :
    (s.push x).capped = s.capped := by
  unfold push
  split <;> rfl

theorem CoinSystem.step_cases {dailyCapPerAdmin : Int} {s s' : CoinSystem} {a : Action}
    (h : s.step dailyCapPerAdmin a = some s') :
    (∃ event now env, a = .event event now env ∧ event.reason ∈ rewardReasons ∧
      s' = s.push (eventRequest env s.economy event now)) ∨
    (∃ input now env, a = .spend input now env ∧ input.reason = input.category.reason ∧
      input.category ≠ .admin ∧ s' = s.push (spendRequest env s.economy input now)) ∨
    (∃ adminUserId body checkedAt now env, a = .adjust adminUserId body checkedAt now env ∧
      checkedAt ≤ now ∧ s' = s.push
        (adjustRequest dailyCapPerAdmin env s.economy adminUserId.text body checkedAt now)) ∨
    (∃ i env drawn r, a = .commit i env drawn ∧ s.requests[i]? = some r ∧
      s'.economy = r.work.run env drawn s.economy ∧ s'.requests = s.requests.eraseIdx i ∧
      s'.capped = match r.check with
        | .earnings _ => s.capped ++ newRows s.economy (r.work.run env drawn s.economy)
        | _ => s.capped) := by
  cases a with
  | event event now env =>
    simp only [step] at h
    split at h
    · next hreason => exact .inl ⟨event, now, env, rfl, hreason, (Option.some.inj h).symm⟩
    · cases h
  | spend input now env =>
    simp only [step] at h
    split at h
    · next hguard =>
      exact .inr (.inl ⟨input, now, env, rfl, hguard.1, hguard.2, (Option.some.inj h).symm⟩)
    · cases h
  | adjust adminUserId body checkedAt now env =>
    simp only [step] at h
    split at h
    · next hclock =>
      exact .inr (.inr (.inl ⟨adminUserId, body, checkedAt, now, env, rfl, hclock,
        (Option.some.inj h).symm⟩))
    · cases h
  | commit i env drawn =>
    simp only [step] at h
    split at h
    · cases h
    · next r hr =>
      rw [← Option.some.inj h]
      exact .inr (.inr (.inr ⟨i, env, drawn, r, rfl, hr, rfl, rfl, rfl⟩))

/-- No two transactions have the same key. -/
def CoinDb.KeysUnique (db : CoinDb) : Prop :=
  (db.coinTransactions.map (·.idempotencyKey)).Nodup

theorem CoinDb.KeysUnique.append {db db' : CoinDb} {row : CoinTransactionRow} (h : db.KeysUnique)
    (hrows : db'.coinTransactions = db.coinTransactions ++ [row])
    (hfresh : db.hasKey row.idempotencyKey = false) : db'.KeysUnique := by
  unfold CoinDb.KeysUnique
  rw [hrows, List.map_append, List.map_singleton]
  refine List.nodup_append.mpr ⟨h, List.nodup_singleton _, ?_⟩
  intro k hk k' hk' he
  obtain ⟨x, hx, rfl⟩ := List.mem_map.mp hk
  rw [List.mem_singleton.mp hk'] at he
  have hany : db.hasKey row.idempotencyKey = true :=
    List.any_eq_true.mpr ⟨x, hx, by simp [he]⟩
  rw [hfresh] at hany
  cases hany

theorem Work.row_idempotencyKey (w : Work) (transactionId : String) (balanceAfter : Int) :
    (w.row transactionId balanceAfter).idempotencyKey = w.key := by
  cases w <;> rfl

theorem CoinSystem.step_keysUnique {dailyCapPerAdmin : Int} {s s' : CoinSystem} {a : Action}
    (h : s.economy.coins.KeysUnique) (hstep : s.step dailyCapPerAdmin a = some s') :
    s'.economy.coins.KeysUnique := by
  rcases step_cases hstep with ⟨_, _, _, -, -, rfl⟩ | ⟨_, _, _, -, -, -, rfl⟩ |
    ⟨_, _, _, _, _, -, -, rfl⟩ | ⟨i, env, drawn, r, -, -, heconomy, -, -⟩
  · simpa using h
  · simpa using h
  · simpa using h
  · rw [heconomy]
    rcases r.work.run_cases env drawn s.economy with hsame | ⟨balanceAfter, hrows, hfresh⟩
    · rwa [hsame]
    · exact h.append hrows (by rwa [Work.row_idempotencyKey])

/-- **Coin operations are idempotent per key.** A credit or spend whose key stands in the ledger
changes no table, whether it runs on its own or has its transaction among others; and in every
interleaving of requests a key has at most one ledger row. -/
theorem coin_keys_used_once (dailyCapPerAdmin : Int) :
    (∀ env economy event now drawn, economy.coins.hasKey (CoinEventInput.key event) = true →
      (processCoinEvent env economy event now drawn).2 = economy) ∧
    (∀ env economy input now drawn,
      economy.coins.hasKey (CoinSpendInput.idempotencyKey input) = true →
        (processSpend env economy input now drawn).2 = economy) ∧
    (∀ (s s' : CoinSystem) i env drawn r, s.requests[i]? = some r →
      s.economy.coins.hasKey r.work.key = true →
        s.step dailyCapPerAdmin (.commit i env drawn) = some s' → s'.economy = s.economy) ∧
    (∀ acts s, exec (CoinSystem.step dailyCapPerAdmin) CoinSystem.start acts = some s →
      ∀ key, s.economy.coins.coinTransactions.countP (fun row => row.idempotencyKey = key) ≤ 1) := by
  refine ⟨?_, ?_, ?_, ?_⟩
  · intro env economy event now drawn h
    exact processCoinEvent_of_hasKey now drawn h
  · intro env economy input now drawn h
    exact processSpend_of_hasKey now drawn h
  · intro s s' i env drawn r hr hkey hstep
    simp only [CoinSystem.step, hr] at hstep
    rw [← Option.some.inj hstep]
    exact Work.run_of_hasKey env drawn hkey
  · intro acts s hs key
    have hunique : s.economy.coins.KeysUnique :=
      exec_invariant (I := fun s : CoinSystem => s.economy.coins.KeysUnique)
        (fun _ _ _ h hstep => CoinSystem.step_keysUnique h hstep) hs List.nodup_nil
    have hcount := List.nodup_iff_count_le_one.mp hunique key
    rw [List.count, List.countP_map] at hcount
    exact hcount

def plainEnv : CoinEnv := ⟨fun _ _ => true, fun _ _ => none⟩

def completionReward (userId attemptId : String) : CoinEventInput :=
  { userId, source := .attempt, amount := 5, reason := "QUIZ_COMPLETION_REWARD",
    referenceId := attemptId }

/-- What the database draws for the `n`-th transaction. -/
def drawnIds (n : Nat) (clock : Int) : Drawn := ⟨s!"t{n}", s!"e{n}", clock⟩

def rewarded : Economy :=
  (processCoinEvent plainEnv Economy.empty (completionReward "u1" "a1") 0 (drawnIds 0 0)).2

def rewardTwice : List Action :=
  [.event (completionReward "u1" "a1") 0 plainEnv, .event (completionReward "u1" "a1") 1 plainEnv,
   .commit 0 plainEnv (drawnIds 0 0), .commit 0 plainEnv (drawnIds 1 1)]

/-- The same reward a second time, on its own and side by side with the first. -/
theorem coin_keys_used_once_again :
    rewarded.coins.hasKey (completionReward "u1" "a1").key = true ∧
      (processCoinEvent plainEnv rewarded (completionReward "u1" "a1") 7 (drawnIds 1 7)).2
        = rewarded ∧
      ∃ s, exec (CoinSystem.step 10000000) CoinSystem.start rewardTwice = some s ∧
        s.economy.coins.coinTransactions.countP
          (fun row => row.idempotencyKey = "coin:u1:attempt:a1") ≤ 1 := by
  have hkey : rewarded.coins.hasKey (completionReward "u1" "a1").key = true := by decide +kernel
  obtain ⟨hevent, -, -, hruns⟩ := coin_keys_used_once 10000000
  obtain ⟨s, hs⟩ : ∃ s, exec (CoinSystem.step 10000000) CoinSystem.start rewardTwice = some s :=
    Option.isSome_iff_exists.mp (by decide +kernel)
  exact ⟨hkey, hevent _ _ _ 7 _ hkey, s, hs, hruns rewardTwice s hs _⟩

end QuizBackend.Coins
