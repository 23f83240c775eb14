import QuizBackend.Coins.Caps

/-!
# Refunds (`coin-refund.service.ts`)

A refund is a credit for a transaction of the ledger: it is looked up by its id, and what it was
for goes into the metadata of the new row. The reason of the new row is the text `'admin'`, and
that is none of the values of `coin_reason`, which has a `REFUND` of its own. So PostgreSQL rejects
the row, the transaction rolls back, and no refund ever changes anything (`refund_unchanged`).

Two of the three things one would ask of refunds hold for this reason alone: whose transaction is
named is not checked, and neither is what has been refunded for it before.
-/

namespace QuizBackend.Coins

open Lib Outbox

/-! ## The service -/

/-- `CoinRefundParams`; the reason is its JSON text. -/
structure CoinRefundParams where
  userId : String
  originalTransactionId : String
  refundAmount : Int
  refundReason : String
  idempotencyKey : String

structure CoinRefundResult where
  refundTransactionId : String
  newBalance : Int

structure CoinRefundedEvent where
  refundId : String
  userId : String
  originalTransactionId : String
  originalReason : String
  refundAmount : Int
  balanceAfter : Int
  refundReason : String
  referenceType : CoinReferenceType
  referenceId : Option String
  timestamp : Int

def validateRefund (params : CoinRefundParams) : Except String Unit :=
  if params.userId = "" then .error "CoinRefundService.refund: userId is required"
  else if params.refundAmount ≤ 0 then
    .error (s!"CoinRefundService.refund: refundAmount must be a positive integer "
      ++ s!"(got {params.refundAmount})")
  else if params.idempotencyKey = "" then
    .error "CoinRefundService.refund: idempotencyKey is required"
  else if params.originalTransactionId = "" then
    .error "CoinRefundService.refund: originalTransactionId is required"
  else .ok ()

def findTransactionIdByIdempotencyKey (db : CoinDb) (idempotencyKey : String) : Option String :=
  (db.coinTransactions.find? fun row => row.idempotencyKey = idempotencyKey).map (·.transactionId)

def CoinDb.findTransaction (db : CoinDb) (transactionId : String) : Option CoinTransactionRow :=
  db.coinTransactions.find? fun row => row.transactionId = transactionId

def findTransactionForRefund (db : CoinDb) (transactionId : String) :
    Except String CoinTransactionRow :=
  match db.findTransaction transactionId with
  | some row => .ok row
  | none => .error s!"COIN_TRANSACTION_NOT_FOUND: transaction {transactionId} does not exist"

def refundMember (originalTransactionId : String) : String :=
  "\x7b\"refund\":true,\"originalTransactionId\":\"" ++ originalTransactionId ++ "\","

def refundMetadata (original : CoinTransactionRow) (refundReason : String) : String :=
  refundMember original.transactionId ++ "\"originalReason\":\"" ++ original.reason
    ++ "\",\"refundReason\":" ++ refundReason ++ "\x7d"

def CoinRefundParams.params (params : CoinRefundParams) (original : CoinTransactionRow)
    (now : Int) : ApplyDeltaParams :=
  { userId := params.userId, delta := params.refundAmount, reason := "admin",
    referenceType := .admin, referenceId := original.referenceId,
    idempotencyKey := params.idempotencyKey, now, expectedDelta := params.refundAmount,
    metadata := refundMetadata original params.refundReason }

/-- The transaction of `refund`, with the event it emits before it commits. -/
def commitRefund (params : CoinRefundParams) (now : Int) (drawn : Drawn) (economy : Economy) :
    Except String ((ApplyDeltaResult × CoinRefundedEvent) × Economy) := do
  let original ← findTransactionForRefund economy.coins params.originalTransactionId
  let (outcome, coins) ←
    applyDeltaInTx economy.coins (params.params original now) drawn.transactionId
  let event : CoinRefundedEvent :=
    { refundId := outcome.transactionId, userId := params.userId,
      originalTransactionId := original.transactionId, originalReason := original.reason,
      refundAmount := params.refundAmount, balanceAfter := outcome.wallet.balance,
      refundReason := params.refundReason, referenceType := original.referenceType,
      referenceId := original.referenceId, timestamp := now }
  return ((outcome, event), { economy with coins })

def refund (economy : Economy) (params : CoinRefundParams) (now : Int) (drawn : Drawn) :
    Except String CoinRefundResult × Economy :=
  match validateRefund params with
  | .error e => (.error e, economy)
  | .ok _ =>
    match findTransactionIdByIdempotencyKey economy.coins params.idempotencyKey with
    | some existing => (.ok ⟨existing, economy.coins.balance params.userId⟩, economy)
    | none =>
      match economy.transaction (commitRefund params now drawn) with
      | (.error e, economy') => (.error e, economy')
      | (.ok (result, _), economy') =>
        (.ok ⟨result.transactionId, result.wallet.balance⟩, economy')

structure RefundCall where
  params : CoinRefundParams
  now : Int
  drawn : Drawn

def Economy.refunded (economy : Economy) (call : RefundCall) : Option Economy :=
  some (refund economy call.params call.now call.drawn).2

/-! ## What should come of it -/

/-- The call names a transaction that took coins from the same user, and its key is fresh. -/
def RefundCall.NamesOwnSpend (call : RefundCall) (economy : Economy) : Prop :=
  validateRefund call.params = .ok () ∧
    economy.coins.hasKey call.params.idempotencyKey = false ∧
    ∃ original, economy.coins.findTransaction call.params.originalTransactionId = some original ∧
      original.userId = call.params.userId ∧ original.amount < 0

def RefundCall.NamesOthers (call : RefundCall) (economy : Economy) : Prop :=
  ∃ original, economy.coins.findTransaction call.params.originalTransactionId = some original ∧
    original.userId ≠ call.params.userId

structure RefundOk (before : Economy) (call : RefundCall) (after : Economy) : Prop where
  credits : call.NamesOwnSpend before →
    ∃ row, after.coins.coinTransactions = before.coins.coinTransactions ++ [row] ∧
      row.userId = call.params.userId ∧ row.amount = call.params.refundAmount
  refuses : call.NamesOthers before → after = before

def isRefundOf (originalTransactionId : String) (row : CoinTransactionRow) : Bool :=
  (refundMember originalTransactionId).toList.isPrefixOf row.metadata.toList

def refundedSum (before after : Economy) (originalTransactionId : String) : Int :=
  (((newRows before after).filter (isRefundOf originalTransactionId)).map (·.amount)).sum

/-- No spend is refunded beyond its amount. -/
def RefundsBounded (before after : Economy) : Prop :=
  ∀ original ∈ before.coins.coinTransactions, original.amount < 0 →
    refundedSum before after original.transactionId ≤ -original.amount

/-! ## A refund changes nothing -/

theorem admin_not_mem_coinReason : "admin" ∉ coinReason := by decide

theorem commitRefund_ne_ok {params : CoinRefundParams} {now : Int} {drawn : Drawn}
    {economy economy' : Economy} {result : ApplyDeltaResult × CoinRefundedEvent} :
    commitRefund params now drawn economy ≠ .ok (result, economy') := by
  intro h
  obtain ⟨original, -, h⟩ := bind_eq_ok.mp h
  obtain ⟨⟨outcome, coins⟩, hdelta, -⟩ := bind_eq_ok.mp h
  exact admin_not_mem_coinReason (CreditAccepted.of_ok hdelta).reason

/-- **No refund changes anything**: it is turned away by a check, it is a repetition, or its
transaction rolls back. -/
theorem refund_unchanged (economy : Economy) (params : CoinRefundParams) (now : Int)
    (drawn : Drawn) : (refund economy params now drawn).2 = economy := by
  unfold refund
  split
  · rfl
  · split
    · rfl
    · unfold Economy.transaction
      cases h : commitRefund params now drawn economy with
      | error e => rfl
      | ok x => exact absurd h commitRefund_ne_ok

theorem exec_refunded (economy : Economy) (calls : List RefundCall) :
    exec Economy.refunded economy calls = some economy := by
  induction calls with
  | nil => rfl
  | cons call calls ih =>
    rw [exec_cons, Economy.refunded, refund_unchanged, Option.bind_some]
    exact ih

theorem refundsBounded_refl (economy : Economy) : RefundsBounded economy economy := by
  intro original _ hdebit
  rw [refundedSum, newRows, List.drop_length]
  show (0 : Int) ≤ _
  omega

theorem refundOk_self_iff {economy : Economy} {call : RefundCall} :
    RefundOk economy call economy ↔ ¬ call.NamesOwnSpend economy := by
  constructor
  · intro h hown
    obtain ⟨row, hrow, -⟩ := h.credits hown
    have hlength := congrArg List.length hrow
    simp at hlength
  · intro hown
    exact ⟨fun h => absurd h hown, fun _ => rfl⟩

/-- **When refunds are sound.** Whatever stands in the ledger, a sequence of calls does what it
should — each that names a debit of the same user under a fresh key is credited, one that names
somebody else's transaction does nothing, and for no debit more is refunded than it took — exactly
when it has no call of the first kind. The other two always hold. -/
theorem refunds_sound_iff (economy : Economy) (calls : List RefundCall) :
    (Always Economy.refunded (RefundsBounded economy) economy calls ∧
      EachStep Economy.refunded RefundOk economy calls) ↔
    ∀ call ∈ calls, ¬ call.NamesOwnSpend economy := by
  constructor
  · rintro ⟨-, hsteps⟩ call hcall
    obtain ⟨pre, post, rfl⟩ := List.append_of_mem hcall
    have hpre : pre ++ [call] <+: pre ++ call :: post := ⟨post, by simp⟩
    have hok := hsteps pre call economy economy hpre (exec_refunded economy pre)
      (exec_refunded economy [call])
    exact refundOk_self_iff.mp hok
  · intro hcalls
    have hsame : ∀ pre m, exec Economy.refunded economy pre = some m → m = economy := by
      intro pre m hm
      rw [exec_refunded, Option.some.injEq] at hm
      exact hm.symm
    constructor
    · intro pre m _ hm
      rw [hsame pre m hm]
      exact refundsBounded_refl economy
    · intro pre call m m' hpre hm hstep
      have hcall : call ∈ calls := hpre.subset (List.mem_append_right pre (List.mem_singleton_self _))
      have hm' := hsame (pre ++ [call]) m' (exec_snoc.mpr ⟨m, hm, hstep⟩)
      rw [hsame pre m hm, hm']
      exact refundOk_self_iff.mpr (hcalls call hcall)

/-- A user has been rewarded and has sent a tip: the second row of the ledger is the debit. -/
def tipped : Economy :=
  let rewarded := (processCoinEvent plainEnv Economy.empty
    { completionReward "u1" "s1" with
      source := .streak, amount := 150, reason := "STREAK_MILESTONE_REWARD" } 0
    (drawnIds 0 0)).2
  (processSpend plainEnv rewarded (authorTip "k1") 1 (drawnIds 1 1)).2

def refundTip : RefundCall :=
  { params :=
      { userId := "u1", originalTransactionId := "t1", refundAmount := 25,
        refundReason := "\"quiz removed\"", idempotencyKey := "r1" },
    now := 2, drawn := drawnIds 2 2 }

/-- The refund of a tip is not credited. -/
theorem refund_of_tip_lost :
    refundTip.NamesOwnSpend tipped ∧
      ¬ RefundOk tipped refundTip (refund tipped refundTip.params 2 (drawnIds 2 2)).2 := by
  have hown : refundTip.NamesOwnSpend tipped := by
    obtain ⟨original, hfind, huser, hdebit⟩ : ∃ original,
        tipped.coins.findTransaction "t1" = some original ∧ original.userId = "u1" ∧
          original.amount = -25 := by
      obtain ⟨original, hfind, hread⟩ : ∃ original,
          tipped.coins.findTransaction "t1" = some original ∧
            (original.userId, original.amount) = ("u1", -25) :=
        Option.map_eq_some_iff.mp (by decide +kernel)
      exact ⟨original, hfind, (Prod.mk.inj hread).1, (Prod.mk.inj hread).2⟩
    have hfresh : tipped.coins.hasKey "r1" = false := by decide +kernel
    exact ⟨rfl, hfresh, original, hfind, huser, by rw [hdebit]; decide⟩
  refine ⟨hown, ?_⟩
  rw [refund_unchanged]
  exact fun h => refundOk_self_iff.mp h hown

end QuizBackend.Coins
