import QuizBackend.Coins.Reconciliation
import QuizBackend.Lib.Run
import QuizBackend.Outbox.Events
import QuizBackend.Lib.Calendar

/-!
# The coin services

Coins come in through `CoinIngestionService.processCoinEvent` (the five listeners and positive
adjustments by an admin) and go out through `CoinSpendService.processSpend` (tips, flair slots,
suppressions, negative adjustments). Both are the same shape: checks that read the tables outside
any transaction, and then one transaction around the ledger statement of the repository, the outbox
row and, for two kinds of spend, the row of what was bought.

Each service is cut at that seam: `prepare…` is everything up to the transaction, with the value it
read, and `commit…` is the transaction. A service called on its own is one after the other; requests
that run side by side interleave there.

What the services read of other tables (does the referenced entity exist, is the badge owned) is an
input, and so is what the database draws: ids and its clock. Instants are milliseconds, so a message
that quotes a time quotes a number here.
-/

namespace QuizBackend.Coins

open Lib Outbox

/-! ## The tables -/

structure UserFlairSlotRow where
  userId : String
  userBadgeId : String
  badgeId : String
  badgeName : String
  badgeIconUrl : String
  badgeColor : Option String
  slotStart : Int
  slotEnd : Int
  coinTransactionId : String

structure UserQuizSuppressionRow where
  userId : String
  quizId : String
  expiresAt : Int
  coinTransactionId : String

structure Economy where
  coins : CoinDb
  outbox : OutboxEvents
  flairSlots : Table String UserFlairSlotRow (·.coinTransactionId)
  quizSuppressions : Table String UserQuizSuppressionRow (·.coinTransactionId)

def Economy.empty : Economy := ⟨CoinDb.empty, Table.empty _, Table.empty _, Table.empty _⟩

structure OwnedBadge where
  badgeId : String
  badgeName : String
  badgeIconUrl : Option String
  badgeColor : Option String

/-- What the services find in other tables: whether a referenced entity exists, and the badge
behind a `user_badge_id` if the user owns it. -/
structure CoinEnv where
  referenceExists : CoinReferenceType → String → Bool
  ownedBadge : String → String → Option OwnedBadge

structure Drawn where
  transactionId : String
  eventId : String
  clock : Int

/-- `db.transaction`: what is written stays written if the body returns, and nothing of it if the
body throws. -/
def Economy.transaction {α : Type} (economy : Economy)
    (body : Economy → Except String (α × Economy)) : Except String α × Economy :=
  match body economy with
  | .ok (result, economy') => (.ok result, economy')
  | .error e => (.error e, economy)

/-! ## Constants -/

def dailyQuizEarningsCap : Int := 200

def dailyTipCountCap : Nat := 3

def dailyCapReasons : List String := ["QUIZ_COMPLETION_REWARD", "QUIZ_PERFECT_BONUS"]

def flairDuration : Int := 7 * msPerDay

def suppressDuration : Int := 30 * msPerDay

def startOfUtcDay (now : Int) : Int := dateTruncDay now

def CoinReferenceType.text : CoinReferenceType → String
  | .attempt => "attempt"
  | .dailyChallenge => "daily_challenge"
  | .streak => "streak"
  | .badge => "badge"
  | .tournament => "tournament"
  | .tip => "tip"
  | .flair => "flair"
  | .suppress => "suppress"
  | .admin => "admin"

def CoinEnv.assertExists (env : CoinEnv) (kind : CoinReferenceType) (id : String) :
    Except String Unit :=
  if env.referenceExists kind id then .ok ()
  else .error s!"Referenced entity not found: kind={kind.text} id={id}"

/-! ## Queries -/

def countsAsEarned (userId : String) (since : Int) (row : CoinTransactionRow) : Bool :=
  row.userId == userId && row.reason ∈ dailyCapReasons && row.amount > 0 && since ≤ row.createdAt

def getDailyEarnCapSum (db : CoinDb) (userId : String) (todayUtcMidnight : Int) : Int :=
  ((db.coinTransactions.filter (countsAsEarned userId todayUtcMidnight)).map (·.amount)).sum

def countsAsTip (userId : String) (since : Int) (row : CoinTransactionRow) : Bool :=
  row.userId == userId && row.reason == "TIP_SENT" && since ≤ row.createdAt

def getDailyTipCount (db : CoinDb) (userId : String) (todayUtcMidnight : Int) : Nat :=
  db.coinTransactions.countP (countsAsTip userId todayUtcMidnight)

def adminMember : String := "\x7b\"adminUserId\":\""

/-- The text `adminAdjust` binds as metadata: its members in their order, the reason as JSON. -/
def adminMetadata (adminUserId reasonJson : String) : String :=
  adminMember ++ adminUserId ++ "\",\"reason\":" ++ reasonJson ++
    ",\"kind\":\"admin_adjustment\"\x7d"

/-- `metadata->>'adminUserId' = adminUserId`, on a text that begins with this member; an id needs
no escaping. -/
def adminIs (adminUserId : String) (row : CoinTransactionRow) : Bool :=
  (adminMember ++ adminUserId ++ "\",").toList.isPrefixOf row.metadata.toList

def countsAsAdjustment (adminUserId : String) (since : Int) (row : CoinTransactionRow) : Bool :=
  row.reason == "ADMIN_ADJUSTMENT" && adminIs adminUserId row && since ≤ row.createdAt

def getAdminDailyAdjustmentSum (db : CoinDb) (adminUserId : String) (todayUtcMidnight : Int) :
    Int :=
  ((db.coinTransactions.filter (countsAsAdjustment adminUserId todayUtcMidnight)).map
    fun row => (row.amount.natAbs : Int)).sum

inductive Check where
  | free
  | earnings (earnedSoFar : Int)
  | tips (tipCountToday : Nat)
  | adjustments (adminUserId : String) (checkedAt dailySum : Int)
  deriving DecidableEq

/-! ## `processCoinEvent` -/

inductive CoinSource where
  | attempt | daily | streak | badge | tournament

def CoinSource.text : CoinSource → String
  | .attempt => "attempt"
  | .daily => "daily"
  | .streak => "streak"
  | .badge => "badge"
  | .tournament => "tournament"

/-- `mapReferenceType` of the ingestion service; `sourceToReferencedEntity` has the same kinds. -/
def mapReferenceType : CoinSource → CoinReferenceType
  | .attempt => .attempt
  | .daily => .dailyChallenge
  | .streak => .streak
  | .badge => .badge
  | .tournament => .tournament

/-- `CoinEventInput`; `metadata` is its JSON text. -/
structure CoinEventInput where
  userId : String
  source : CoinSource
  amount : Int
  reason : String
  referenceId : String
  idempotencyKey : Option String := none
  metadata : Option String := none
  applyDailyCap : Option Bool := none

section

variable (event : CoinEventInput)

def validateEvent : Except String Unit :=
  if event.userId = "" then .error "userId is required"
  else if event.amount ≤ 0 then
    .error s!"amount must be a positive integer (got {event.amount})"
  else if event.referenceId = "" then .error "referenceId is required"
  else if event.reason ∉ coinReason then
    .error s!"reason must be a known CoinReason (got {event.reason})"
  else .ok ()

def deriveIdempotencyKey : String :=
  "coin:" ++ event.userId ++ ":" ++ event.source.text ++ ":" ++ event.referenceId

/-- `event.idempotencyKey ?? deriveIdempotencyKey(event)`. -/
def CoinEventInput.key : String :=
  event.idempotencyKey.getD (deriveIdempotencyKey event)

/-- `event.applyDailyCap ?? DAILY_CAP_REASONS.has(event.reason)`. -/
def CoinEventInput.applyCap : Bool :=
  event.applyDailyCap.getD (event.reason ∈ dailyCapReasons)

end

def computeAppliedDelta (db : CoinDb) (event : CoinEventInput) (now : Int) : Int × Check :=
  if event.applyCap then
    let earnedSoFar := getDailyEarnCapSum db event.userId (startOfUtcDay now)
    (min event.amount (max 0 (dailyQuizEarningsCap - earnedSoFar)), .earnings earnedSoFar)
  else (event.amount, .free)

def CoinEventInput.params (event : CoinEventInput) (appliedDelta now : Int) : ApplyDeltaParams :=
  { userId := event.userId, delta := appliedDelta, reason := event.reason,
    referenceType := mapReferenceType event.source, referenceId := some event.referenceId,
    idempotencyKey := event.key, now, expectedDelta := event.amount,
    metadata := event.metadata.getD "\x7b\x7d" }

/-- `processCoinEvent` up to its transaction: the parameters of the ledger statement, or nothing
when the cap leaves nothing. -/
def prepareCoinEvent (env : CoinEnv) (db : CoinDb) (event : CoinEventInput) (now : Int) :
    Except String (Option (ApplyDeltaParams × Check)) := do
  validateEvent event
  env.assertExists (mapReferenceType event.source) event.referenceId
  let (appliedDelta, check) := computeAppliedDelta db event now
  if appliedDelta = 0 then return none
  return some (event.params appliedDelta now, check)

def coinAddedEvent (params : ApplyDeltaParams) (result : ApplyDeltaResult) (drawn : Drawn) :
    NewEvent :=
  { eventId := drawn.eventId, aggregateType := "coin", eventType := "coin.added",
    payload :=
      [("eventType", .str "coin.added"), ("userId", .str params.userId),
       ("reason", .str params.reason), ("amount", .num params.delta),
       ("newBalance", .num result.wallet.balance), ("transactionId", .str result.transactionId),
       ("balanceAfter", .num result.wallet.balance),
       ("referenceType", .str params.referenceType.text),
       ("referenceId", (params.referenceId.map .str).getD .null),
       ("metadata", .raw params.metadata), ("ledgerCreatedAt", .num result.createdAt),
       ("occurredAt", .num params.now)],
    createdAt := params.now, nextAttemptAt := drawn.clock,
    idempotencyKey := some params.idempotencyKey, correlationId := none }

def commitCoinEvent (params : ApplyDeltaParams) (drawn : Drawn) (economy : Economy) :
    Except String (ApplyDeltaResult × Economy) := do
  let (result, coins) ← applyDeltaInTx economy.coins params drawn.transactionId
  let outbox := insertEvent economy.outbox (coinAddedEvent params result drawn)
  return (result, { economy with coins, outbox })

structure CoinEventResult where
  userId : String
  appliedDelta : Int
  newBalance : Int
  transactionId : Option String
  deriving DecidableEq

def processCoinEvent (env : CoinEnv) (economy : Economy) (event : CoinEventInput) (now : Int)
    (drawn : Drawn) : Except String CoinEventResult × Economy :=
  match prepareCoinEvent env economy.coins event now with
  | .error e => (.error e, economy)
  | .ok none => (.ok ⟨event.userId, 0, economy.coins.balance event.userId, none⟩, economy)
  | .ok (some (params, _)) =>
    match economy.transaction (commitCoinEvent params drawn) with
    | (.error e, economy') => (.error e, economy')
    | (.ok result, economy') =>
      (.ok ⟨event.userId, params.delta, result.wallet.balance, some result.transactionId⟩, economy')

/-! ## `processSpend` -/

inductive CoinSpendCategory where
  | tip | flair | suppress | admin
  deriving DecidableEq

def CoinSpendCategory.referenceType : CoinSpendCategory → CoinReferenceType
  | .tip => .tip
  | .flair => .flair
  | .suppress => .suppress
  | .admin => .admin

/-- `CoinSpendInput`; `metadata` is its JSON text and `metadataUserBadgeId` the member
`userBadgeId` of it, if that is a string. -/
structure CoinSpendInput where
  userId : String
  category : CoinSpendCategory
  reason : String
  amount : Int
  referenceId : String
  idempotencyKey : String
  metadata : Option String := none
  metadataUserBadgeId : Option String := none
  deriving DecidableEq

def validateInput (input : CoinSpendInput) : Except String Unit :=
  if input.userId = "" then .error "CoinSpendService.processSpend: userId is required"
  else if input.amount ≤ 0 then
    .error (s!"CoinSpendService.processSpend: amount must be a positive integer "
      ++ s!"(got {input.amount})")
  else if input.idempotencyKey = "" then
    .error "CoinSpendService.processSpend: idempotencyKey is required"
  else if input.referenceId = "" then
    .error "CoinSpendService.processSpend: referenceId is required"
  else .ok ()

def CoinSpendInput.userBadgeId (input : CoinSpendInput) : String :=
  input.metadataUserBadgeId.getD input.referenceId

/-- `getActiveSuppression`: the expiry of the latest suppression that is still on. -/
def getActiveSuppression (economy : Economy) (userId quizId : String) (now : Int) : Option Int :=
  ((economy.quizSuppressions.rows.filter fun row =>
    row.userId = userId ∧ row.quizId = quizId ∧ now < row.expiresAt).map (·.expiresAt)).max?

/-- `runPreTransactionGuards`, with what the tip guard read. -/
def runPreTransactionGuards (env : CoinEnv) (economy : Economy) (input : CoinSpendInput)
    (now : Int) : Except String Check :=
  match input.category with
  | .tip => do
    if input.referenceId = input.userId then
      throw s!"COIN_TIP_SELF_NOT_ALLOWED: user {input.userId} cannot tip themselves"
    env.assertExists .tip input.referenceId
    let tipCountToday := getDailyTipCount economy.coins input.userId (startOfUtcDay now)
    if tipCountToday + 1 > dailyTipCountCap then
      throw (s!"COIN_TIP_DAILY_CAP_EXCEEDED: user {input.userId} already sent "
        ++ s!"{tipCountToday} tips today (cap {dailyTipCountCap})")
    return .tips tipCountToday
  | .suppress => do
    env.assertExists .suppress input.referenceId
    match getActiveSuppression economy input.userId input.referenceId now with
    | some expiresAt =>
      throw (s!"COIN_SUPPRESS_ALREADY_ACTIVE: user {input.userId} already suppresses quiz "
        ++ s!"{input.referenceId} until {expiresAt}")
    | none => return .free
  | .flair => do
    env.assertExists .flair input.userBadgeId
    if (env.ownedBadge input.userBadgeId input.userId).isNone then
      throw (s!"COIN_FLAIR_BADGE_NOT_OWNED: user {input.userId} does not own userBadge "
        ++ s!"{input.userBadgeId}")
    return .free
  | .admin => return .free

def prepareSpend (env : CoinEnv) (economy : Economy) (input : CoinSpendInput) (now : Int) :
    Except String Check := do
  validateInput input
  runPreTransactionGuards env economy input now

def CoinSpendInput.params (input : CoinSpendInput) (now : Int) : ApplySpendParams :=
  { userId := input.userId, cost := input.amount, reason := input.reason,
    referenceType := input.category.referenceType, referenceId := some input.referenceId,
    idempotencyKey := input.idempotencyKey, now, metadata := input.metadata.getD "\x7b\x7d" }

def coinSpentEvent (input : CoinSpendInput) (now : Int) (result : ApplyDeltaResult)
    (drawn : Drawn) : NewEvent :=
  { eventId := drawn.eventId, aggregateType := "coin", eventType := "coin.spent",
    payload :=
      [("eventType", .str "coin.spent"), ("userId", .str input.userId),
       ("reason", .str input.reason), ("amount", .num (-input.amount)),
       ("newBalance", .num result.wallet.balance), ("transactionId", .str result.transactionId),
       ("balanceAfter", .num result.wallet.balance),
       ("referenceType", .str input.category.referenceType.text),
       ("referenceId", .str input.referenceId),
       ("category", .str input.category.referenceType.text),
       ("metadata", .raw (input.metadata.getD "\x7b\x7d")),
       ("ledgerCreatedAt", .num result.createdAt), ("occurredAt", .num now)],
    createdAt := now, nextAttemptAt := drawn.clock, idempotencyKey := some input.idempotencyKey,
    correlationId := none }

def writeFlairSlotInTx (env : CoinEnv) (economy : Economy) (input : CoinSpendInput)
    (drawn : Drawn) : Except String Economy :=
  match env.ownedBadge input.userBadgeId input.userId with
  | none =>
    .error (s!"CoinRepository.writeFlairSlotInTx: userBadgeId {input.userBadgeId} not owned by "
      ++ input.userId)
  | some badge =>
    let row : UserFlairSlotRow :=
      { userId := input.userId, userBadgeId := input.userBadgeId, badgeId := badge.badgeId,
        badgeName := badge.badgeName, badgeIconUrl := badge.badgeIconUrl.getD "",
        badgeColor := badge.badgeColor, slotStart := drawn.clock,
        slotEnd := drawn.clock + flairDuration, coinTransactionId := drawn.transactionId }
    .ok { economy with flairSlots := (economy.flairSlots.insert? row).getD economy.flairSlots }

def writeQuizSuppressionInTx (economy : Economy) (input : CoinSpendInput) (drawn : Drawn) :
    Economy :=
  let row : UserQuizSuppressionRow :=
    { userId := input.userId, quizId := input.referenceId,
      expiresAt := drawn.clock + suppressDuration, coinTransactionId := drawn.transactionId }
  { economy with
    quizSuppressions := (economy.quizSuppressions.insert? row).getD economy.quizSuppressions }

def writePurchase (env : CoinEnv) (economy : Economy) (input : CoinSpendInput) (drawn : Drawn) :
    Except String Economy :=
  match input.category with
  | .flair => writeFlairSlotInTx env economy input drawn
  | .suppress => .ok (writeQuizSuppressionInTx economy input drawn)
  | .tip => .ok economy
  | .admin => .ok economy

def commitSpend (env : CoinEnv) (input : CoinSpendInput) (now : Int) (drawn : Drawn)
    (economy : Economy) : Except String (ApplyDeltaResult × Economy) := do
  match ← applySpendInTx economy.coins (input.params now) drawn.transactionId with
  | none => throw "INSUFFICIENT_COINS_DEFERRED"
  | some (result, coins) =>
    let outbox := insertEvent economy.outbox (coinSpentEvent input now result drawn)
    let economy ← writePurchase env { economy with coins, outbox } input drawn
    return (result, economy)

/-- The `catch` of `processSpend`: the deferred error becomes one that quotes the balance. -/
def spendError (economy : Economy) (input : CoinSpendInput) (e : String) : String :=
  if e = "INSUFFICIENT_COINS_DEFERRED" then
    s!"INSUFFICIENT_COINS: user {input.userId} has {economy.coins.balance input.userId} coins; "
      ++ s!"{input.amount} required"
  else e

def processSpend (env : CoinEnv) (economy : Economy) (input : CoinSpendInput) (now : Int)
    (drawn : Drawn) : Except String CoinEventResult × Economy :=
  match prepareSpend env economy input now with
  | .error e => (.error e, economy)
  | .ok _ =>
    match economy.transaction (commitSpend env input now drawn) with
    | (.error e, economy') => (.error (spendError economy' input e), economy')
    | (.ok result, economy') =>
      (.ok ⟨input.userId, -input.amount, result.wallet.balance, some result.transactionId⟩,
        economy')

/-! ## `adminAdjust` -/

/-- `CoinAdminAdjustRequestDto`: an integer between a million below and a million above zero. -/
structure CoinAdminAdjustRequest where
  userId : String
  amount : Int
  reason : String
  reasonJson : String
  idempotencyKey : String

/-- The checks of `adminAdjust` before it hands the request on, with what it read. The reason is
trimmed of white space. -/
def checkAdjust (dailyCapPerAdmin : Int) (db : CoinDb) (adminUserId : String)
    (body : CoinAdminAdjustRequest) (checkedAt : Int) : Except String Check := do
  if body.reason.trimAscii.isEmpty then
    throw (s!"COIN_ADMIN_ADJUSTMENT_REASON_REQUIRED: admin {adminUserId} must supply a "
      ++ "non-empty reason")
  if body.userId = adminUserId then
    throw (s!"COIN_ADMIN_SELF_ADJUSTMENT_NOT_ALLOWED: admin {adminUserId} cannot adjust their "
      ++ "own balance")
  if body.amount > 0 then
    let dailySum := getAdminDailyAdjustmentSum db adminUserId (startOfUtcDay checkedAt)
    if dailySum + body.amount > dailyCapPerAdmin then
      throw (s!"COIN_ADMIN_DAILY_CAP_EXCEEDED: admin {adminUserId} has already adjusted "
        ++ s!"{dailySum} coins today; adding {body.amount} would exceed the cap of "
        ++ s!"{dailyCapPerAdmin}")
    return .adjustments adminUserId checkedAt dailySum
  return .free

def adjustEvent (adminUserId : String) (body : CoinAdminAdjustRequest) : CoinEventInput :=
  { userId := body.userId, source := .attempt, amount := body.amount, reason := "ADMIN_ADJUSTMENT",
    referenceId := adminUserId, idempotencyKey := some body.idempotencyKey,
    metadata := some (adminMetadata adminUserId body.reasonJson), applyDailyCap := some false }

def adjustSpend (adminUserId : String) (body : CoinAdminAdjustRequest) : CoinSpendInput :=
  { userId := body.userId, category := .admin, reason := "ADMIN_ADJUSTMENT",
    amount := -body.amount, referenceId := adminUserId, idempotencyKey := body.idempotencyKey,
    metadata := some (adminMetadata adminUserId body.reasonJson) }

/-! ## What a committed transaction has written -/

def ApplyDeltaParams.row (params : ApplyDeltaParams) (transactionId : String) (balanceAfter : Int) :
    CoinTransactionRow :=
  { transactionId, userId := params.userId, reason := params.reason, amount := params.delta,
    balanceAfter, referenceType := params.referenceType, referenceId := params.referenceId,
    idempotencyKey := params.idempotencyKey, metadata := params.metadata, createdAt := params.now }

def ApplySpendParams.row (params : ApplySpendParams) (transactionId : String) (balanceAfter : Int) :
    CoinTransactionRow :=
  { transactionId, userId := params.userId, reason := params.reason, amount := -params.cost,
    balanceAfter, referenceType := params.referenceType, referenceId := params.referenceId,
    idempotencyKey := params.idempotencyKey, metadata := params.metadata, createdAt := params.now }

theorem insertLedger_rows {db : CoinDb} {row : CoinTransactionRow}
    {rows : List CoinTransactionRow} (h : insertLedger db row = .ok (some rows)) :
    rows = db.coinTransactions ++ [row] := by
  obtain ⟨hreason, hamount, hkey⟩ := insertLedger_some h
  unfold insertLedger at h
  rw [if_neg (not_not_intro hreason), if_neg hamount] at h
  split at h
  · cases h
  · rw [hkey] at h
    simpa using h.symm

variable {result : ApplyDeltaResult} {economy economy' : Economy}

theorem applyDeltaInTx_row {db db' : CoinDb} {params : ApplyDeltaParams} {transactionId : String}
    (h : applyDeltaInTx db params transactionId = .ok (result, db')) :
    ∃ balanceAfter, db'.coinTransactions
        = db.coinTransactions ++ [params.row transactionId balanceAfter] ∧
      db.hasKey params.idempotencyKey = false := by
  have hacc := CreditAccepted.of_ok h
  obtain ⟨wallets, w, hwallet, hu, -⟩ := creditWallet_spec db params hacc.sum
  simp only [applyDeltaInTx, hacc.delta, not_true_eq_false, if_false, hwallet, bind, Except.bind,
    pure, Except.pure] at h
  split at h
  · cases h
  · next ledger hledger =>
    cases ledger with
    | none => cases h
    | some rows =>
      simp only [Except.ok.injEq, Prod.mk.injEq] at h
      refine ⟨w.balance, ?_, hacc.fresh⟩
      rw [← h.2, insertLedger_rows hledger]
      simp only [ApplyDeltaParams.row, hu]

theorem applySpendInTx_row {db db' : CoinDb} {params : ApplySpendParams} {transactionId : String}
    (h : applySpendInTx db params transactionId = .ok (some (result, db'))) :
    ∃ balanceAfter, db'.coinTransactions
        = db.coinTransactions ++ [params.row transactionId balanceAfter] ∧
      db.hasKey params.idempotencyKey = false := by
  have hacc := SpendAccepted.of_ok h
  simp only [applySpendInTx, Int.not_le.mpr hacc.positive, hacc.cost, not_true_eq_false, if_false,
    bind, Except.bind, pure, Except.pure] at h
  split at h
  · cases h
  · next w hw =>
    have hu : w.userId = params.userId := Table.key_of_find? hw
    split at h
    · cases h
    · split at h
      · cases h
      · next ledger hledger =>
        cases ledger with
        | none => cases h
        | some rows =>
          simp only [Option.map_some, Except.ok.injEq, Option.some.injEq, Prod.mk.injEq] at h
          refine ⟨max 0 (w.balance - params.cost), ?_, hacc.fresh⟩
          rw [← h.2, insertLedger_rows hledger]
          simp only [ApplySpendParams.row, hu]

theorem commitCoinEvent_row {params : ApplyDeltaParams} {drawn : Drawn}
    (h : commitCoinEvent params drawn economy = .ok (result, economy')) :
    ∃ balanceAfter, economy'.coins.coinTransactions
        = economy.coins.coinTransactions ++ [params.row drawn.transactionId balanceAfter] ∧
      economy.coins.hasKey params.idempotencyKey = false := by
  unfold commitCoinEvent at h
  obtain ⟨⟨result', coins⟩, hdelta, h⟩ := bind_eq_ok.mp h
  simp only [pure_eq_ok, Prod.mk.injEq] at h
  obtain ⟨-, rfl⟩ := h
  exact applyDeltaInTx_row hdelta

theorem writePurchase_coins {env : CoinEnv} {input : CoinSpendInput} {drawn : Drawn}
    (h : writePurchase env economy input drawn = .ok economy') :
    economy'.coins = economy.coins := by
  unfold writePurchase at h
  split at h
  · unfold writeFlairSlotInTx at h
    split at h
    · cases h
    · rw [← Except.ok.inj h]
  · rw [← Except.ok.inj h]
    rfl
  · rw [← Except.ok.inj h]
  · rw [← Except.ok.inj h]

theorem commitSpend_row {env : CoinEnv} {input : CoinSpendInput} {now : Int} {drawn : Drawn}
    (h : commitSpend env input now drawn economy = .ok (result, economy')) :
    ∃ balanceAfter, economy'.coins.coinTransactions = economy.coins.coinTransactions
        ++ [(input.params now).row drawn.transactionId balanceAfter] ∧
      economy.coins.hasKey input.idempotencyKey = false := by
  unfold commitSpend at h
  obtain ⟨x, hspend, h⟩ := bind_eq_ok.mp h
  cases x with
  | none => exact absurd h throw_ne_ok
  | some x =>
    obtain ⟨result', coins⟩ := x
    obtain ⟨economy₁, hwrite, h⟩ := bind_eq_ok.mp h
    simp only [pure_eq_ok, Prod.mk.injEq] at h
    obtain ⟨-, rfl⟩ := h
    obtain ⟨balanceAfter, hrow, hfresh⟩ := applySpendInTx_row hspend
    refine ⟨balanceAfter, ?_, hfresh⟩
    rw [writePurchase_coins hwrite, ← hrow]

end QuizBackend.Coins
