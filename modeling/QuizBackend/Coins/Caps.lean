import QuizBackend.Coins.Idempotency
import QuizBackend.Lib.Exclusive

/-!
# The daily limits

Three limits hold per UTC day: what a user earns from quizzes, how many tips a user sends, how much
an admin adds to balances. Each is checked by reading the ledger before the transaction, and the
transaction does not check it again; nothing keeps two requests of the same user apart in between.

Two rewards that read the same sum are therefore both credited in full. A limit holds in every run
in which a request commits only while what it has read is still true (`ReadStands`). Under that
condition each limit is one step of arithmetic: the row a request adds and the rows of its day
together stay below what the check allowed, since every row of the day is among the rows the check
has counted.
-/

namespace QuizBackend.Coins

open Lib CoinSystem
open Bool (and_eq_true)

/-! ## The limits -/

def earnedOn (userId : String) (day : Int) (row : CoinTransactionRow) : Bool :=
  row.userId == userId && row.reason ∈ dailyCapReasons && utcDay row.createdAt == day

def tippedOn (userId : String) (day : Int) (row : CoinTransactionRow) : Bool :=
  row.userId == userId && row.reason == "TIP_SENT" && utcDay row.createdAt == day

def adjustedOn (adminUserId : String) (day : Int) (row : CoinTransactionRow) : Bool :=
  row.reason == "ADMIN_ADJUSTMENT" && adminIs adminUserId row && row.amount > 0 &&
    utcDay row.createdAt == day

/-- No cap is exceeded on any day. -/
structure CapsHold (dailyCapPerAdmin : Nat) (s : CoinSystem) : Prop where
  earnings : ∀ userId day,
    ((s.capped.filter (earnedOn userId day)).map (·.amount)).sum ≤ dailyQuizEarningsCap
  tips : ∀ userId day,
    s.economy.coins.coinTransactions.countP (tippedOn userId day) ≤ dailyTipCountCap
  adjustments : ∀ (adminUserId : Uuid) day,
    ((s.economy.coins.coinTransactions.filter (adjustedOn adminUserId.text day)).map
      (·.amount)).sum ≤ dailyCapPerAdmin

def Request.ReadStands (db : CoinDb) (r : Request) : Prop :=
  match r.check, r.work with
  | .earnings earnedSoFar, .credit params =>
    getDailyEarnCapSum db params.userId (startOfUtcDay params.now) = earnedSoFar
  | .tips tipCountToday, .spend input now =>
    getDailyTipCount db input.userId (startOfUtcDay now) = tipCountToday
  | .adjustments adminUserId checkedAt dailySum, _ =>
    getAdminDailyAdjustmentSum db adminUserId (startOfUtcDay checkedAt) = dailySum
  | _, _ => True

/-- What was read for a cap still holds at the commit. -/
def ReadsStand (s : CoinSystem) : Action → Prop
  | .commit i _ _ => ∀ r ∈ s.requests[i]?, r.ReadStands s.economy.coins
  | _ => True

/-! ## What the checks let through -/

def Request.Checked (dailyCapPerAdmin : Nat) (r : Request) : Prop :=
  match r.work, r.check with
  | .credit params, .earnings earnedSoFar =>
    params.reason ∈ rewardReasons ∧ 0 < params.delta ∧
      params.delta ≤ max 0 (dailyQuizEarningsCap - earnedSoFar)
  | .credit params, .free => params.reason ∈ rewardReasons
  | .credit params, .adjustments adminUserId checkedAt dailySum =>
    params.reason = "ADMIN_ADJUSTMENT" ∧ 0 < params.delta ∧
      dailySum + params.delta ≤ dailyCapPerAdmin ∧ checkedAt ≤ params.now ∧
      ∃ (admin : Uuid) (reasonJson : String), adminUserId = admin.text ∧
        params.metadata = adminMetadata admin.text reasonJson
  | .spend input _, .tips tipCountToday =>
    input.reason = "TIP_SENT" ∧ 0 < input.amount ∧ tipCountToday + 1 ≤ dailyTipCountCap
  | .spend input _, .free => input.reason ≠ "TIP_SENT" ∧ 0 < input.amount
  | _, _ => False

theorem CoinSystem.forall_requests_push {P : Request → Prop} {s : CoinSystem}
    {x : Except String (Option Request)} (h : ∀ r ∈ s.requests, P r)
    (hx : ∀ r, x = .ok (some r) → P r) : ∀ r ∈ (s.push x).requests, P r := by
  unfold push
  split
  · next r => exact forall_mem_join h (hx r rfl)
  · exact h

theorem amount_pos_of_validateEvent {event : CoinEventInput} (h : validateEvent event = .ok ()) :
    0 < event.amount := by
  unfold validateEvent at h
  split at h
  · cases h
  · split at h
    · cases h
    · next hpos => exact Int.not_le.mp hpos

variable {env : CoinEnv} {economy : Economy} {input : CoinSpendInput} {row : CoinTransactionRow}
  {s' : CoinSystem}

theorem eventRequest_checked {dailyCapPerAdmin : Nat} {event : CoinEventInput} {now : Int}
    {r : Request} (hreason : event.reason ∈ rewardReasons)
    (h : eventRequest env economy event now = .ok (some r)) : r.Checked dailyCapPerAdmin := by
  obtain ⟨x, hprepare, hx⟩ := map_eq_ok.mp h
  obtain ⟨⟨params, check⟩, rfl, hr⟩ := Option.map_eq_some_iff.mp hx
  obtain ⟨hvalid, hne, rfl, rfl⟩ := prepareCoinEvent_params hprepare
  have hpos := amount_pos_of_validateEvent hvalid
  rw [← hr]
  unfold computeAppliedDelta at hne ⊢
  split
  · next hcap =>
    rw [if_pos hcap] at hne
    have hne : min event.amount (max 0 (dailyQuizEarningsCap
      - getDailyEarnCapSum economy.coins event.userId (startOfUtcDay now))) ≠ 0 := hne
    refine ⟨hreason, ?_, Int.min_le_right ..⟩
    show 0 < min event.amount (max 0 _)
    omega
  · exact hreason

theorem amount_pos_of_validateInput (h : validateInput input = .ok ()) : 0 < input.amount := by
  unfold validateInput at h
  split at h
  · cases h
  · split at h
    · cases h
    · next hpos => exact Int.not_le.mp hpos

theorem runPreTransactionGuards_tip {now : Int} {check : Check} (hcat : input.category = .tip)
    (h : runPreTransactionGuards env economy input now = .ok check) :
    ∃ n, check = .tips n ∧ n + 1 ≤ dailyTipCountCap := by
  unfold runPreTransactionGuards at h
  simp only [hcat, guard_eq_ok, bind_eq_ok, pure_eq_ok] at h
  obtain ⟨-, -, -, hroom, rfl⟩ := h
  exact ⟨_, rfl, Nat.le_of_not_lt hroom⟩

theorem runPreTransactionGuards_free {now : Int} {check : Check} (hcat : input.category ≠ .tip)
    (h : runPreTransactionGuards env economy input now = .ok check) : check = .free := by
  unfold runPreTransactionGuards at h
  split at h
  · next htip => exact absurd htip hcat
  · obtain ⟨-, -, h⟩ := bind_eq_ok.mp h
    split at h
    · exact absurd h throw_ne_ok
    · exact (pure_eq_ok.mp h).symm
  · simp only [guard_eq_ok, bind_eq_ok, pure_eq_ok] at h
    obtain ⟨-, -, -, h⟩ := h
    exact h.symm
  · exact (pure_eq_ok.mp h).symm

theorem spendRequest_checked {dailyCapPerAdmin : Nat} {now : Int} {r : Request}
    (hreason : input.reason = input.category.reason)
    (h : spendRequest env economy input now = .ok (some r)) : r.Checked dailyCapPerAdmin := by
  obtain ⟨check, hprepare, hr⟩ := map_eq_ok.mp h
  rw [← Option.some.inj hr]
  obtain ⟨⟨⟩, hvalid, hguards⟩ := bind_eq_ok.mp hprepare
  have hpos := amount_pos_of_validateInput hvalid
  by_cases htip : input.category = .tip
  · obtain ⟨n, rfl, hroom⟩ := runPreTransactionGuards_tip htip hguards
    refine ⟨?_, hpos, hroom⟩
    rw [hreason, htip]
    rfl
  · rw [runPreTransactionGuards_free htip hguards]
    refine ⟨?_, hpos⟩
    rw [hreason]
    cases hcat : input.category with
    | tip => exact absurd hcat htip
    | flair | suppress | admin => decide

theorem adjustRequest_checked {dailyCapPerAdmin : Nat} {adminUserId : Uuid}
    {body : CoinAdminAdjustRequest} {checkedAt now : Int} {r : Request} (hclock : checkedAt ≤ now)
    (h : adjustRequest dailyCapPerAdmin env economy adminUserId.text body checkedAt now = .ok (some r)) :
    r.Checked dailyCapPerAdmin := by
  unfold adjustRequest at h
  obtain ⟨check, hcheck, h⟩ := bind_eq_ok.mp h
  split at h
  · next hpos =>
    obtain ⟨x, hprepare, h⟩ := bind_eq_ok.mp h
    obtain ⟨⟨params, check'⟩, rfl, hr⟩ := Option.map_eq_some_iff.mp (pure_eq_ok.mp h)
    obtain ⟨-, -, rfl, -⟩ := prepareCoinEvent_params hprepare
    have hdelta : (computeAppliedDelta economy.coins (adjustEvent adminUserId.text body) now).1
        = body.amount := rfl
    -- the check of a positive amount has read the sum of the day
    simp only [checkAdjust, guard_eq_ok, if_pos hpos, pure_eq_ok] at hcheck
    obtain ⟨-, -, hroom, rfl⟩ := hcheck
    rw [← hr]
    refine ⟨rfl, ?_, ?_, hclock, adminUserId, body.reasonJson, rfl, rfl⟩
    · show 0 < (computeAppliedDelta economy.coins (adjustEvent adminUserId.text body) now).1
      rw [hdelta]
      exact hpos
    · show _ + (computeAppliedDelta economy.coins (adjustEvent adminUserId.text body) now).1 ≤ _
      rw [hdelta]
      exact Int.not_lt.mp hroom
  · split at h
    · exact spendRequest_checked rfl h
    · exact absurd h throw_ne_ok

/-! ## What a day holds is what the checks have counted -/

section Sums

variable {ρ : Type}

/-- A sum over some of the rows of a list is at most a sum over more of them, if the rows it leaves
out count for something that is not negative. -/
theorem sum_filter_le {p q : ρ → Bool} {f g : ρ → Int} {l₁ l₂ : List ρ} (hsub : l₁.Sublist l₂)
    (hpq : ∀ x ∈ l₁, p x = true → q x = true ∧ f x ≤ g x) (hg : ∀ x, q x = true → 0 ≤ g x) :
    ((l₁.filter p).map f).sum ≤ ((l₂.filter q).map g).sum := by
  induction hsub with
  | slnil => simp
  | cons x hsub ih =>
    have hrest := ih hpq
    by_cases hx : q x = true
    · simp only [List.filter_cons_of_pos hx, List.map_cons, List.sum_cons]
      have hnonneg := hg x hx
      omega
    · simpa only [List.filter_cons_of_neg hx] using hrest
  | cons_cons x hsub ih =>
    have hrest := ih fun y hy => hpq y (List.mem_cons_of_mem x hy)
    by_cases hp : p x = true
    · obtain ⟨hq, hle⟩ := hpq x (List.mem_cons_self ..) hp
      simp only [List.filter_cons_of_pos hp, List.filter_cons_of_pos hq, List.map_cons,
        List.sum_cons]
      omega
    · by_cases hq : q x = true
      · simp only [List.filter_cons_of_neg hp, List.filter_cons_of_pos hq, List.map_cons,
          List.sum_cons]
        have hnonneg := hg x hq
        omega
      · simpa only [List.filter_cons_of_neg hp, List.filter_cons_of_neg hq] using hrest

theorem sum_filter_append (p : ρ → Bool) (f : ρ → Int) (l : List ρ) (x : ρ) :
    (((l ++ [x]).filter p).map f).sum
      = ((l.filter p).map f).sum + if p x = true then f x else 0 := by
  rw [List.filter_append, List.map_append, List.sum_append]
  by_cases hx : p x = true
  · simp [hx]
  · simp [hx]

end Sums

section Day

variable {db : CoinDb} {now : Int}

theorem earned_le_getDailyEarnCapSum {capped : List CoinTransactionRow} (userId : String)
    (hsub : capped.Sublist db.coinTransactions) (hpos : ∀ row ∈ capped, 0 < row.amount) :
    ((capped.filter (earnedOn userId (utcDay now))).map (·.amount)).sum
      ≤ getDailyEarnCapSum db userId (startOfUtcDay now) := by
  refine sum_filter_le hsub ?_ ?_
  · intro row hrow hday
    simp only [earnedOn, and_eq_true, beq_iff_eq, decide_eq_true_eq] at hday
    refine ⟨?_, Int.le_refl _⟩
    simp only [countsAsEarned, and_eq_true, beq_iff_eq, decide_eq_true_eq]
    exact ⟨⟨hday.1, hpos row hrow⟩, dateTruncDay_le (Int.le_of_eq hday.2.symm)⟩
  · intro row hrow
    simp only [countsAsEarned, and_eq_true, decide_eq_true_eq] at hrow
    exact Int.le_of_lt hrow.1.2

theorem tipped_le_getDailyTipCount (userId : String) :
    db.coinTransactions.countP (tippedOn userId (utcDay now))
      ≤ getDailyTipCount db userId (startOfUtcDay now) := by
  refine List.countP_mono_left ?_
  intro row _ hday
  simp only [tippedOn, and_eq_true, beq_iff_eq] at hday
  simp only [countsAsTip, and_eq_true, beq_iff_eq, decide_eq_true_eq]
  exact ⟨hday.1, dateTruncDay_le (Int.le_of_eq hday.2.symm)⟩

theorem adjusted_le_getAdminDailyAdjustmentSum (adminUserId : String) {checkedAt : Int}
    (hclock : checkedAt ≤ now) :
    ((db.coinTransactions.filter (adjustedOn adminUserId (utcDay now))).map (·.amount)).sum
      ≤ getAdminDailyAdjustmentSum db adminUserId (startOfUtcDay checkedAt) := by
  refine sum_filter_le (List.Sublist.refl _) ?_ ?_
  · intro row _ hday
    simp only [adjustedOn, and_eq_true, beq_iff_eq, decide_eq_true_eq] at hday
    refine ⟨?_, by omega⟩
    simp only [countsAsAdjustment, and_eq_true, beq_iff_eq, decide_eq_true_eq]
    refine ⟨hday.1.1, dateTruncDay_le ?_⟩
    rw [hday.2]
    exact utcDay_mono hclock
  · intro row _
    exact Int.natCast_nonneg _

end Day

/-! ## One row more -/

/-- The limits, and what they are kept by: the requests under way have passed their checks, and the
rows credited under the cap are rows of the ledger, each a credit. -/
structure CapsInv (dailyCapPerAdmin : Nat) (s : CoinSystem) : Prop where
  requests : ∀ r ∈ s.requests, r.Checked dailyCapPerAdmin
  capped : s.capped.Sublist s.economy.coins.coinTransactions
  positive : ∀ row ∈ s.capped, 0 < row.amount
  caps : CapsHold dailyCapPerAdmin s

section OneRow

variable {dailyCapPerAdmin : Nat} {s : CoinSystem} {r : Request}

theorem ne_of_mem_rewardReasons {reason : String} (h : reason ∈ rewardReasons) :
    reason ≠ "TIP_SENT" ∧ reason ≠ "ADMIN_ADJUSTMENT" := by
  constructor
  · rintro rfl
    exact absurd h (by decide)
  · rintro rfl
    exact absurd h (by decide)

theorem CapsInv.earnings_append {params : ApplyDeltaParams} {earnedSoFar : Int}
    (h : CapsInv dailyCapPerAdmin s) (hpos : 0 < params.delta)
    (hle : params.delta ≤ max 0 (dailyQuizEarningsCap - earnedSoFar))
    (hread : getDailyEarnCapSum s.economy.coins params.userId (startOfUtcDay params.now)
      = earnedSoFar) (transactionId : String) (balanceAfter : Int) (userId : String) (day : Int) :
    (((s.capped ++ [params.row transactionId balanceAfter]).filter (earnedOn userId day)).map
      (·.amount)).sum ≤ dailyQuizEarningsCap := by
  rw [sum_filter_append]
  have hold := h.caps.earnings userId day
  split
  · next hrow =>
    simp only [earnedOn, ApplyDeltaParams.row, and_eq_true, beq_iff_eq] at hrow
    obtain ⟨⟨rfl, -⟩, rfl⟩ := hrow
    have hday : _ ≤ getDailyEarnCapSum _ params.userId (startOfUtcDay params.now) :=
      earned_le_getDailyEarnCapSum params.userId h.capped h.positive
    rw [hread] at hday
    show _ + params.delta ≤ _
    omega
  · rw [Int.add_zero]
    exact hold

theorem CapsInv.tips_append (h : CapsInv dailyCapPerAdmin s) (hr : r.Checked dailyCapPerAdmin)
    (hread : r.ReadStands s.economy.coins) (transactionId : String) (balanceAfter : Int)
    (userId : String) (day : Int) :
    (s.economy.coins.coinTransactions ++ [r.work.row transactionId balanceAfter]).countP
      (tippedOn userId day) ≤ dailyTipCountCap := by
  rw [List.countP_append, List.countP_singleton]
  have hold := h.caps.tips userId day
  -- only a tip counts, and a tip has read the count
  split
  · next hrow =>
    simp only [tippedOn, and_eq_true, beq_iff_eq] at hrow
    obtain ⟨⟨huser, htip⟩, hday⟩ := hrow
    obtain ⟨work, check⟩ := r
    cases work with
    | credit params =>
      have htip' : params.reason = "TIP_SENT" := htip
      cases check with
      | free => exact absurd htip' (ne_of_mem_rewardReasons hr).1
      | earnings n => exact absurd htip' (ne_of_mem_rewardReasons hr.1).1
      | tips n => exact hr.elim
      | adjustments a t n =>
        have hadjust : params.reason = "ADMIN_ADJUSTMENT" := hr.1
        rw [hadjust] at htip'
        exact absurd htip' (by decide)
    | spend input now =>
      cases check with
      | free => exact absurd htip hr.1
      | earnings n => exact hr.elim
      | adjustments a t n => exact hr.elim
      | tips n =>
        have hread : getDailyTipCount s.economy.coins input.userId (startOfUtcDay now) = n := hread
        have hcount : _ ≤ getDailyTipCount s.economy.coins input.userId (startOfUtcDay now) :=
          tipped_le_getDailyTipCount input.userId
        have huser : input.userId = userId := huser
        have hday : utcDay now = day := hday
        rw [hread, huser, hday] at hcount
        have hroom : n + 1 ≤ dailyTipCountCap := hr.2.2
        omega
  · omega

theorem eq_of_adminIs {a b : Uuid} {reasonJson : String}
    (hmeta : row.metadata = adminMetadata b.text reasonJson) (h : adminIs a.text row = true) :
    a = b := by
  rw [adminIs, hmeta, List.isPrefixOf_iff_prefix] at h
  unfold adminMetadata at h
  simp only [String.toList_append, List.append_assoc, Uuid.text, String.toList_ofList] at h
  exact Uuid.eq_of_prefix h

theorem CapsInv.adjustments_append (h : CapsInv dailyCapPerAdmin s)
    (hr : r.Checked dailyCapPerAdmin) (hread : r.ReadStands s.economy.coins)
    (transactionId : String) (balanceAfter : Int) (adminUserId : Uuid) (day : Int) :
    (((s.economy.coins.coinTransactions ++ [r.work.row transactionId balanceAfter]).filter
      (adjustedOn adminUserId.text day)).map (·.amount)).sum ≤ dailyCapPerAdmin := by
  rw [sum_filter_append]
  have hold := h.caps.adjustments adminUserId day
  -- only a positive adjustment counts, and one has read the sum of its admin
  split
  · next hrow =>
    simp only [adjustedOn, and_eq_true, beq_iff_eq, decide_eq_true_eq] at hrow
    obtain ⟨⟨⟨hreason, hadmin⟩, hpositive⟩, hday⟩ := hrow
    obtain ⟨work, check⟩ := r
    cases work with
    | credit params =>
      have hreason' : params.reason = "ADMIN_ADJUSTMENT" := hreason
      cases check with
      | free => exact absurd hreason' (ne_of_mem_rewardReasons hr).2
      | earnings n => exact absurd hreason' (ne_of_mem_rewardReasons hr.1).2
      | tips n => exact hr.elim
      | adjustments a t n =>
        obtain ⟨-, -, hroom, hclock, b, reasonJson, rfl, hmeta⟩ := hr
        obtain rfl := eq_of_adminIs (b := b) hmeta hadmin
        have hread : getAdminDailyAdjustmentSum s.economy.coins adminUserId.text (startOfUtcDay t)
          = n := hread
        have hsum : _ ≤ getAdminDailyAdjustmentSum s.economy.coins adminUserId.text _ :=
          adjusted_le_getAdminDailyAdjustmentSum adminUserId.text hclock
        have hday : utcDay params.now = day := hday
        rw [hread, hday] at hsum
        show _ + params.delta ≤ _
        omega
    | spend input now =>
      have hamount : 0 < -input.amount := hpositive
      have hcost : 0 < input.amount := by
        cases check with
        | free => exact hr.2
        | tips n => exact hr.2.1
        | earnings n => exact hr.elim
        | adjustments a t n => exact hr.elim
      omega
  · rw [Int.add_zero]
    exact hold

end OneRow

/-! ## Every run -/

theorem newRows_self (economy : Economy) : newRows economy economy = [] := by
  simp [newRows]

theorem newRows_append {economy' : Economy}
    (h : economy'.coins.coinTransactions = economy.coins.coinTransactions ++ [row]) :
    newRows economy economy' = [row] := by
  simp [newRows, h]

theorem CapsInv.push {dailyCapPerAdmin : Nat} {s : CoinSystem} {x : Except String (Option Request)}
    (h : CapsInv dailyCapPerAdmin s) (hx : ∀ r, x = .ok (some r) → r.Checked dailyCapPerAdmin) :
    CapsInv dailyCapPerAdmin (s.push x) := by
  refine ⟨forall_requests_push h.requests hx, ?_, ?_, ⟨?_, ?_, ?_⟩⟩
  · simpa using h.capped
  · simpa using h.positive
  · simpa using h.caps.earnings
  · simpa using h.caps.tips
  · simpa using h.caps.adjustments

theorem CapsInv.of_uncapped {dailyCapPerAdmin : Nat} {s : CoinSystem}
    (h : CapsInv dailyCapPerAdmin s) (hrest : ∀ x ∈ s'.requests, x.Checked dailyCapPerAdmin)
    (hcapped : s'.capped = s.capped) (heconomy : s'.economy = economy)
    (hrows : economy.coins.coinTransactions = s.economy.coins.coinTransactions ++ [row])
    (htips : ∀ userId day, s'.economy.coins.coinTransactions.countP (tippedOn userId day) ≤ dailyTipCountCap)
    (hadjustments : ∀ (adminUserId : Uuid) day,
      ((s'.economy.coins.coinTransactions.filter (adjustedOn adminUserId.text day)).map
        (·.amount)).sum ≤ dailyCapPerAdmin) :
    CapsInv dailyCapPerAdmin s' := by
  refine ⟨hrest, ?_, ?_, ⟨?_, htips, hadjustments⟩⟩
  · rw [hcapped, heconomy, hrows]
    exact h.capped.trans (List.sublist_append_left _ _)
  · rw [hcapped]
    exact h.positive
  · rw [hcapped]
    exact h.caps.earnings

theorem CapsInv.commit {dailyCapPerAdmin : Nat} {s : CoinSystem} {i : Nat} {drawn : Drawn}
    {r : Request} (h : CapsInv dailyCapPerAdmin s) (hr : s.requests[i]? = some r)
    (hread : r.ReadStands s.economy.coins) (heconomy : s'.economy = r.work.run env drawn s.economy)
    (hrequests : s'.requests = s.requests.eraseIdx i)
    (hcapped : s'.capped = match r.check with
      | .earnings _ => s.capped ++ newRows s.economy (r.work.run env drawn s.economy)
      | _ => s.capped) :
    CapsInv dailyCapPerAdmin s' := by
  have hchecked := h.requests r (List.mem_of_getElem? hr)
  have hrest : ∀ x ∈ s'.requests, x.Checked dailyCapPerAdmin := by
    intro x hx
    rw [hrequests] at hx
    exact h.requests x (List.mem_of_mem_eraseIdx hx)
  rcases r.work.run_cases env drawn s.economy with hsame | ⟨balanceAfter, hrows, -⟩
  · -- rolled back
    rw [hsame] at heconomy hcapped
    have hcapped : s'.capped = s.capped := by
      rw [hcapped, newRows_self, List.append_nil]
      split <;> rfl
    refine ⟨hrest, ?_, ?_, ⟨?_, ?_, ?_⟩⟩
    · rw [hcapped, heconomy]
      exact h.capped
    · rw [hcapped]
      exact h.positive
    · rw [hcapped]
      exact h.caps.earnings
    · rw [heconomy]
      exact h.caps.tips
    · rw [heconomy]
      exact h.caps.adjustments
  · have htips := h.tips_append hchecked hread drawn.transactionId balanceAfter
    have hadjustments := h.adjustments_append hchecked hread drawn.transactionId balanceAfter
    rw [← hrows, ← heconomy] at htips hadjustments
    rw [newRows_append hrows] at hcapped
    obtain ⟨work, check⟩ := r
    cases check with
    | earnings n =>
      cases work with
      | spend input now => exact hchecked.elim
      | credit params =>
        have hcapped : s'.capped = s.capped ++ [params.row drawn.transactionId balanceAfter] :=
          hcapped
        refine ⟨hrest, ?_, ?_, ⟨?_, htips, hadjustments⟩⟩
        · rw [hcapped, heconomy, hrows]
          exact h.capped.append (List.Sublist.refl _)
        · intro row hrow
          rw [hcapped] at hrow
          rcases List.mem_append.mp hrow with hold | hnew
          · exact h.positive row hold
          · rw [List.mem_singleton.mp hnew]
            exact hchecked.2.1
        · rw [hcapped]
          exact h.earnings_append hchecked.2.1 hchecked.2.2 hread _ _
    | free => exact h.of_uncapped hrest hcapped heconomy hrows htips hadjustments
    | tips n => exact h.of_uncapped hrest hcapped heconomy hrows htips hadjustments
    | adjustments a t n => exact h.of_uncapped hrest hcapped heconomy hrows htips hadjustments

theorem CapsInv.step {dailyCapPerAdmin : Nat} {s : CoinSystem} {a : Action}
    (h : CapsInv dailyCapPerAdmin s) (hread : ReadsStand s a)
    (hstep : s.step dailyCapPerAdmin a = some s') : CapsInv dailyCapPerAdmin s' := by
  rcases step_cases hstep with ⟨event, now, env, -, hreason, rfl⟩ |
    ⟨input, now, env, -, hreason, -, rfl⟩ | ⟨admin, body, checkedAt, now, env, -, hclock, rfl⟩ |
    ⟨i, env, drawn, r, rfl, hr, heconomy, hrequests, hcapped⟩
  · exact h.push fun r hr => eventRequest_checked hreason hr
  · exact h.push fun r hr => spendRequest_checked hreason hr
  · exact h.push fun r hr => adjustRequest_checked hclock hr
  · exact h.commit hr (hread r hr) heconomy hrequests hcapped

theorem capsInv_start (dailyCapPerAdmin : Nat) : CapsInv dailyCapPerAdmin start where
  requests := fun _ h => absurd h List.not_mem_nil
  capped := List.Sublist.refl _
  positive := fun _ h => absurd h List.not_mem_nil
  caps :=
    { earnings := fun _ _ => by simp [start, dailyQuizEarningsCap]
      tips := fun _ _ => by simp [start, Economy.empty, CoinDb.empty]
      adjustments := fun _ _ => by simp [start, Economy.empty, CoinDb.empty] }

/-- **The daily limits hold side by side**, in every run in which a request commits only while the
sum or count it has read is still the current one. -/
theorem caps_hold_while_reads_stand (dailyCapPerAdmin : Nat) (acts : List Action)
    (hreads : Along (CoinSystem.step dailyCapPerAdmin) ReadsStand CoinSystem.start acts) :
    Always (CoinSystem.step dailyCapPerAdmin) (CapsHold dailyCapPerAdmin) CoinSystem.start acts := by
  intro pre s hpre hs
  have hinv : CapsInv dailyCapPerAdmin s := (hreads.of_prefix hpre).invariant
    (fun _ _ _ h hread hstep => h.step hread hstep) hs (capsInv_start dailyCapPerAdmin)
  exact hinv.caps

def rewardsInTurn : List Action :=
  [.event (completionReward "u1" "a1") 0 plainEnv, .commit 0 plainEnv (drawnIds 0 0),
   .event (completionReward "u1" "a2") 1 plainEnv, .commit 0 plainEnv (drawnIds 1 1)]

instance (db : CoinDb) (r : Request) : Decidable (r.ReadStands db) :=
  match r with
  | ⟨.credit params, .earnings earnedSoFar⟩ => inferInstanceAs (Decidable
      (getDailyEarnCapSum db params.userId (startOfUtcDay params.now) = earnedSoFar))
  | ⟨.spend input now, .tips tipCountToday⟩ => inferInstanceAs (Decidable
      (getDailyTipCount db input.userId (startOfUtcDay now) = tipCountToday))
  | ⟨.credit _, .adjustments adminUserId checkedAt dailySum⟩ => inferInstanceAs (Decidable
      (getAdminDailyAdjustmentSum db adminUserId (startOfUtcDay checkedAt) = dailySum))
  | ⟨.spend _ _, .adjustments adminUserId checkedAt dailySum⟩ => inferInstanceAs (Decidable
      (getAdminDailyAdjustmentSum db adminUserId (startOfUtcDay checkedAt) = dailySum))
  | ⟨.credit _, .free⟩ => .isTrue trivial
  | ⟨.spend _ _, .free⟩ => .isTrue trivial
  | ⟨.credit _, .tips _⟩ => .isTrue trivial
  | ⟨.spend _ _, .earnings _⟩ => .isTrue trivial

instance (s : CoinSystem) (a : Action) : Decidable (ReadsStand s a) :=
  match a with
  | .commit i _ _ =>
    inferInstanceAs (Decidable (∀ r ∈ s.requests[i]?, r.ReadStands s.economy.coins))
  | .event .. => .isTrue trivial
  | .spend .. => .isTrue trivial
  | .adjust .. => .isTrue trivial

theorem caps_hold_while_reads_stand_in_turn :
    Along (CoinSystem.step (10000 : Nat)) ReadsStand CoinSystem.start rewardsInTurn ∧
      ∃ s, exec (CoinSystem.step (10000 : Nat)) CoinSystem.start rewardsInTurn = some s ∧
        s.capped.length = 2 ∧ CapsHold 10000 s := by
  have hreads : Along (CoinSystem.step (10000 : Nat)) ReadsStand CoinSystem.start rewardsInTurn := by
    decide +kernel
  obtain ⟨s, hs, hlength⟩ : ∃ s, exec (CoinSystem.step (10000 : Nat)) CoinSystem.start rewardsInTurn
      = some s ∧ s.capped.length = 2 := Option.map_eq_some_iff.mp (by decide +kernel)
  exact ⟨hreads, s, hs, hlength,
    caps_hold_while_reads_stand 10000 rewardsInTurn hreads rewardsInTurn s (List.prefix_refl _) hs⟩

def authorTip (key : String) : CoinSpendInput :=
  { userId := "u1", category := .tip, reason := "TIP_SENT", amount := 25, referenceId := "u2",
    idempotencyKey := key }

/-- A user with 150 coins sends four tips at once: all four count the tips of the day before
any of them is written. -/
def fourTipsAtOnce : List Action :=
  [.event { completionReward "u1" "s1" with
      source := .streak, amount := 150, reason := "STREAK_MILESTONE_REWARD" } 0 plainEnv,
   .commit 0 plainEnv (drawnIds 0 0),
   .spend (authorTip "k1") 1 plainEnv, .spend (authorTip "k2") 1 plainEnv,
   .spend (authorTip "k3") 1 plainEnv, .spend (authorTip "k4") 1 plainEnv,
   .commit 0 plainEnv (drawnIds 1 2), .commit 0 plainEnv (drawnIds 2 2),
   .commit 0 plainEnv (drawnIds 3 2), .commit 0 plainEnv (drawnIds 4 2)]

/-- Four tips go through on one day. -/
theorem four_tips_at_once_exceed_cap :
    ∃ s, exec (CoinSystem.step (10000 : Nat)) CoinSystem.start fourTipsAtOnce = some s ∧
      s.economy.coins.coinTransactions.countP (tippedOn "u1" 0) = 4 ∧ ¬ CapsHold 10000 s := by
  refine exists_of_read (fun s => s.economy.coins.coinTransactions.countP (tippedOn "u1" 0)) 4
    (by decide +kernel) fun s hs hcount => ?_
  refine ⟨hcount, ?_⟩
  intro hcaps
  have hle := hcaps.tips "u1" 0
  rw [hcount] at hle
  exact absurd hle (by decide)

end QuizBackend.Coins
