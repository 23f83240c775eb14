import QuizBackend.Lib.Run
import QuizBackend.Lib.Table
import Mathlib.Algebra.BigOperators.Group.List.Basic
import Mathlib.Algebra.Order.Ring.Int

/-!
# The coin ledger (`coin.repository.ts`)

Two tables hold the economy: `user_wallets`, one row per user with the current balance, and
`coin_transactions`, an append-only ledger. Every write goes through one of two statements,
`applyDeltaInTx` (a credit) and `applySpendInTx` (a debit), each of them a single `WITH` query
inside a transaction of `CoinIngestionService.processCoinEvent`, `CoinRefundService.refund` or
`CoinSpendService.processSpend`.

All sub-statements of a `WITH` query read the snapshot taken at its start. That is why a credit
touches the wallet once: when the `INSERT` of `upsert` goes through, the `UPDATE` of `updated`
does not see the new row, and when the row is there the `INSERT` does nothing.

Amounts and balances are PostgreSQL `integer`s: a value outside the four-byte range raises an
error, and so does a `reason` outside the enum. An error, like a thrown exception, rolls the
transaction back. The foreign key to `users` is not part of the model: every user of a step
exists.
-/

namespace QuizBackend.Coins

open Lib

def coinReason : List String :=
  ["QUIZ_COMPLETION_REWARD", "QUIZ_PERFECT_BONUS", "DAILY_CHALLENGE_REWARD",
   "STREAK_MILESTONE_REWARD", "BADGE_REWARD", "TOURNAMENT_PLACEMENT_REWARD", "TIP_SENT",
   "FLAIR_PURCHASED", "SUPPRESS_RECOMMENDED_PURCHASED", "ADMIN_ADJUSTMENT", "REFUND"]

inductive CoinReferenceType where
  | attempt | dailyChallenge | streak | badge | tournament | tip | flair | suppress | admin
  deriving DecidableEq

structure UserWalletRow where
  userId : String
  balance : Int
  createdAt : Int
  updatedAt : Int

structure CoinTransactionRow where
  transactionId : String
  userId : String
  reason : String
  amount : Int
  balanceAfter : Int
  referenceType : CoinReferenceType
  referenceId : Option String
  idempotencyKey : String
  metadata : String
  createdAt : Int

structure CoinDb where
  userWallets : Table String UserWalletRow (·.userId)
  coinTransactions : List CoinTransactionRow

def CoinDb.empty : CoinDb := ⟨Table.empty _, []⟩

structure ApplyDeltaParams where
  userId : String
  delta : Int
  reason : String
  referenceType : CoinReferenceType
  referenceId : Option String
  idempotencyKey : String
  now : Int
  expectedDelta : Int
  metadata : String
  deriving DecidableEq

structure ApplySpendParams where
  userId : String
  cost : Int
  reason : String
  referenceType : CoinReferenceType
  referenceId : Option String
  idempotencyKey : String
  now : Int
  metadata : String

structure ApplyDeltaResult where
  wallet : UserWalletRow
  appliedDelta : Int
  transactionId : String
  createdAt : Int

section

variable (db : CoinDb)

/-- `uq_coin_transactions_idempotency_key` already holds the key. -/
def CoinDb.hasKey (key : String) : Bool :=
  db.coinTransactions.any fun row => row.idempotencyKey == key

/-- The `ledger` sub-statement: `INSERT INTO coin_transactions … ON CONFLICT (idempotency_key)
DO NOTHING`. The inner `none` is the conflict; the error is a value the columns reject. -/
def insertLedger (row : CoinTransactionRow) :
    Except String (Option (List CoinTransactionRow)) :=
  if row.reason ∉ coinReason then
    .error s!"invalid input value for enum coin_reason: {row.reason}"
  else if row.amount = 0 then
    .error "coin_transactions_amount_nonzero"
  else if row.balanceAfter < 0 then
    .error "coin_transactions_balance_after_nonneg"
  else if db.hasKey row.idempotencyKey then
    .ok none
  else
    .ok (some (db.coinTransactions ++ [row]))

/-- The `upsert`, `updated` and `wallet_after` sub-statements: the wallet table after the
credit and the wallet row it leaves. -/
def creditWallet (params : ApplyDeltaParams) :
    Except String (Table String UserWalletRow (·.userId) × UserWalletRow) :=
  match db.userWallets.find? params.userId with
  | none =>
    -- `upsert`: the wallet is new, so `updated` sees no row
    let row : UserWalletRow :=
      { userId := params.userId, balance := max 0 (min 1000000 params.delta),
        createdAt := params.now, updatedAt := params.now }
    match db.userWallets.insert? row with
    | some wallets => .ok (wallets, row)
    | none => .error "user_wallets_pkey"
  | some w =>
    -- `upsert` conflicts and does nothing
    if ¬ IsInt4 (w.balance + params.delta) then .error "integer out of range"
    else
      let credit (w : UserWalletRow) : UserWalletRow :=
        { w with balance := min 1000000 (max 0 (w.balance + params.delta)),
                 updatedAt := params.now }
      .ok (db.userWallets.modify params.userId credit fun _ => rfl, credit w)

/-- `CoinRepository.applyDeltaInTx`. `transactionId` is the `uuidv7()` the database draws. -/
def applyDeltaInTx (params : ApplyDeltaParams) (transactionId : String) :
    Except String (ApplyDeltaResult × CoinDb) := do
  if ¬ IsInt4 params.delta then throw "integer out of range"
  let (wallets, wallet) ← creditWallet db params
  let ledger ← insertLedger db
    { transactionId, userId := wallet.userId, reason := params.reason, amount := params.delta,
      balanceAfter := wallet.balance, referenceType := params.referenceType,
      referenceId := params.referenceId, idempotencyKey := params.idempotencyKey,
      metadata := params.metadata, createdAt := params.now }
  match ledger with
  | none =>
    -- `wallet_after CROSS JOIN ledger` is empty
    throw (s!"CoinRepository.applyDeltaInTx: no row returned for user {params.userId} "
      ++ s!"(delta={params.delta}, key={params.idempotencyKey})")
  | some rows =>
    return ({ wallet, appliedDelta := params.delta, transactionId, createdAt := wallet.createdAt },
      { userWallets := wallets, coinTransactions := rows })

/-- `CoinRepository.applySpendInTx`: `none` when no wallet of the user holds `cost`, or when
the key is taken. -/
def applySpendInTx (params : ApplySpendParams) (transactionId : String) :
    Except String (Option (ApplyDeltaResult × CoinDb)) := do
  if params.cost ≤ 0 then
    throw s!"CoinRepository.applySpendInTx: cost must be a positive integer (got {params.cost})"
  if ¬ IsInt4 params.cost then throw "integer out of range"
  let debit (w : UserWalletRow) : UserWalletRow :=
    { w with balance := max 0 (w.balance - params.cost), updatedAt := params.now }
  match db.userWallets.find? params.userId with
  | none => return none
  | some w =>
    if w.balance < params.cost then return none
    let wallet := debit w
    let ledger ← insertLedger db
      { transactionId, userId := wallet.userId, reason := params.reason, amount := -params.cost,
        balanceAfter := wallet.balance, referenceType := params.referenceType,
        referenceId := params.referenceId, idempotencyKey := params.idempotencyKey,
        metadata := params.metadata, createdAt := params.now }
    return ledger.map fun rows =>
      ({ wallet, appliedDelta := -params.cost, transactionId, createdAt := wallet.createdAt },
        { userWallets := db.userWallets.modify params.userId debit fun _ => rfl,
          coinTransactions := rows })

/-! ## What the tables say about a user -/

def CoinDb.balance (userId : String) : Int :=
  ((db.userWallets.find? userId).map (·.balance)).getD 0

/-- `getLedgerSum`: `COALESCE(SUM(amount), 0)` over the rows of the user. -/
def getLedgerSum (userId : String) : Int :=
  ((db.coinTransactions.filter fun row => row.userId = userId).map (·.amount)).sum

end

/-- `findCoinMismatches`, for the users of `alive` (`users.deleted_at IS NULL`). -/
def findCoinMismatches (alive : String → Bool) (db : CoinDb) : List (String × Int × Int) :=
  ((db.userWallets.rows.filter fun w =>
      alive w.userId && (w.balance < 0 || w.balance ≠ getLedgerSum db w.userId)).map
    fun w => (w.userId, w.balance, getLedgerSum db w.userId)).take 10000

/-! ## The transactions of the services, as atomic steps -/

/-- One transaction of a coin service. `rest` says whether the statements after the ledger
statement (the outbox row, the flair slot, the quiz suppression) succeed. -/
inductive CoinStep where
  | credit (params : ApplyDeltaParams) (transactionId : String) (rest : Bool)
  | spend (params : ApplySpendParams) (transactionId : String) (rest : Bool)

def CoinStep.amount : CoinStep → Int
  | .credit params _ _ => params.delta
  | .spend params _ _ => params.cost

/-- What the step leaves behind: its own effect when it commits, the old tables when anything
in the transaction throws. `processSpend` throws `InsufficientCoinsDeferredError` on `null`. -/
def CoinDb.commit (db : CoinDb) : CoinStep → CoinDb
  | .credit params transactionId rest =>
    match applyDeltaInTx db params transactionId with
    | .ok (_, db') => if rest then db' else db
    | .error _ => db
  | .spend params transactionId rest =>
    match applySpendInTx db params transactionId with
    | .ok (some (_, db')) => if rest then db' else db
    | .ok none => db
    | .error _ => db

/-- The step function of the ledger; a transaction that rolls back is a step too. -/
def CoinDb.step (db : CoinDb) (s : CoinStep) : Option CoinDb := some (db.commit s)

end QuizBackend.Coins
