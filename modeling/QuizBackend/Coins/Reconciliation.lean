import QuizBackend.Coins.Ledger

/-!
# Wallet and ledger reconcile, up to the first saturated wallet

`findCoinMismatches` runs every night and reports a wallet whose balance is not the sum of its
ledger rows. The balance is clamped to `[0, 1000000]` on both paths of a credit and the ledger
row records the raw delta, so the two part company exactly when the clamp bites.

Each statement gets one spec lemma (`applyDeltaInTx_spec`, `applySpendInTx_spec`): the inputs it
accepts, and what it then posts. `Posted` is all a committed transaction does to the two tables,
and every fact about runs is derived from it.
-/

namespace QuizBackend.Coins

open Lib CoinDb Table CoinStep

structure Posted (db db' : CoinDb) (userId : String) (amount balance : Int) : Prop where
  ledger : ∃ row, db'.coinTransactions = db.coinTransactions ++ [row] ∧ row.userId = userId ∧
    row.amount = amount ∧ row.balanceAfter = balance
  balance : db'.balance userId = balance
  frame : ∀ u, u ≠ userId → db'.balance u = db.balance u

structure CreditAccepted (db : CoinDb) (params : ApplyDeltaParams) : Prop where
  delta : IsInt4 params.delta
  sum : IsInt4 (db.balance params.userId + params.delta)
  reason : params.reason ∈ coinReason
  nonzero : params.delta ≠ 0
  fresh : db.hasKey params.idempotencyKey = false

structure SpendAccepted (db : CoinDb) (params : ApplySpendParams) : Prop where
  positive : 0 < params.cost
  cost : IsInt4 params.cost
  funds : params.cost ≤ db.balance params.userId
  reason : params.reason ∈ coinReason
  fresh : db.hasKey params.idempotencyKey = false

theorem balance_of_find? {db : CoinDb} {u : String} {w : UserWalletRow}
    (h : db.userWallets.find? u = some w) : db.balance u = w.balance := by
  simp [balance, h]

theorem balance_of_none {db : CoinDb} {u : String} (h : db.userWallets.find? u = none) :
    db.balance u = 0 := by
  simp [balance, h]

theorem creditWallet_spec (db : CoinDb) (params : ApplyDeltaParams)
    (hsum : IsInt4 (db.balance params.userId + params.delta)) :
    ∃ wallets w, creditWallet db params = .ok (wallets, w) ∧ w.userId = params.userId ∧
      w.balance = min 1000000 (max 0 (db.balance params.userId + params.delta)) ∧
      wallets.find? params.userId = some w ∧
      ∀ u, u ≠ params.userId → wallets.find? u = db.userWallets.find? u := by
  unfold creditWallet
  cases hw : db.userWallets.find? params.userId with
  | none =>
    let row : UserWalletRow :=
      { userId := params.userId, balance := max 0 (min 1000000 params.delta),
        createdAt := params.now, updatedAt := params.now }
    obtain ⟨wallets, hins⟩ := insert?_isSome (t := db.userWallets) (r := row) hw
    have hclamp : row.balance = min 1000000 (max 0 (db.balance params.userId + params.delta)) := by
      rw [balance_of_none hw]
      show max 0 (min 1000000 params.delta) = _
      omega
    refine ⟨wallets, row, ?_, rfl, hclamp, ?_, ?_⟩
    · simp only [row] at hins
      simp only [hins, row]
    · rw [find?_insert? hins, if_pos rfl]
    · intro u hu
      rw [find?_insert? hins, if_neg (fun he => hu he.symm)]
  | some w =>
    rw [balance_of_find? hw] at hsum ⊢
    have hkey : w.userId = params.userId := key_of_find? hw
    let credit (w : UserWalletRow) : UserWalletRow :=
      { w with balance := min 1000000 (max 0 (w.balance + params.delta)),
               updatedAt := params.now }
    refine ⟨db.userWallets.modify params.userId credit fun _ => rfl, credit w, ?_,
      hkey, rfl, find?_modify_self hw,
      fun u hu => find?_modify_ne hu⟩
    exact if_neg (not_not_intro hsum)

theorem insertLedger_eq (db : CoinDb) {row : CoinTransactionRow} (hr : row.reason ∈ coinReason)
    (ha : row.amount ≠ 0) (hb : 0 ≤ row.balanceAfter) :
    insertLedger db row = .ok (if db.hasKey row.idempotencyKey then none
      else some (db.coinTransactions ++ [row])) := by
  unfold insertLedger
  rw [if_neg (not_not_intro hr), if_neg ha, if_neg (Int.not_lt.mpr hb)]
  split <;> rfl

theorem insertLedger_some {db : CoinDb} {row : CoinTransactionRow}
    {rows : List CoinTransactionRow} (h : insertLedger db row = .ok (some rows)) :
    row.reason ∈ coinReason ∧ row.amount ≠ 0 ∧ db.hasKey row.idempotencyKey = false := by
  unfold insertLedger at h
  split at h
  · cases h
  · rename_i hr
    split at h
    · cases h
    · rename_i ha
      split at h
      · cases h
      · split at h
        · cases h
        · rename_i hk
          exact ⟨not_not.mp hr, ha, by simpa using hk⟩

/-- **`applyDeltaInTx`**: an accepted credit posts the raw delta and the clamped balance. -/
theorem applyDeltaInTx_spec {db : CoinDb} {params : ApplyDeltaParams} (transactionId : String)
    (h : CreditAccepted db params) :
    ∃ res db', applyDeltaInTx db params transactionId = .ok (res, db') ∧
      Posted db db' params.userId params.delta
        (min 1000000 (max 0 (db.balance params.userId + params.delta))) := by
  obtain ⟨wallets, w, hcw, hu, hb, hfind, hframe⟩ := creditWallet_spec db params h.sum
  have hnn : 0 ≤ w.balance := by rw [hb]; omega
  let row : CoinTransactionRow :=
    { transactionId, userId := w.userId, reason := params.reason, amount := params.delta,
      balanceAfter := w.balance, referenceType := params.referenceType,
      referenceId := params.referenceId, idempotencyKey := params.idempotencyKey,
      metadata := params.metadata, createdAt := params.now }
  have hled : insertLedger db row = .ok (some (db.coinTransactions ++ [row])) := by
    have hamount : row.amount ≠ 0 := h.nonzero
    rw [insertLedger_eq db h.reason hamount hnn, if_neg (by simp [row, h.fresh])]
  refine ⟨⟨w, params.delta, transactionId, w.createdAt⟩, ⟨wallets, db.coinTransactions ++ [row]⟩,
    ?_, ⟨row, rfl, hu, rfl, hb⟩, ?_, ?_⟩
  · simp only [applyDeltaInTx, h.delta, not_true_eq_false, if_false, hcw, bind, Except.bind,
      pure, Except.pure]
    rw [hled]
  · simp only [balance, hfind, Option.map_some, Option.getD_some, hb]
  · intro u hne
    simp only [balance, hframe u hne]

variable {db' : CoinDb} {s : CoinStep}

theorem CreditAccepted.of_ok {db : CoinDb} {params : ApplyDeltaParams} {transactionId : String}
    {res : ApplyDeltaResult} (h : applyDeltaInTx db params transactionId = .ok (res, db')) :
    CreditAccepted db params := by
  unfold applyDeltaInTx at h
  by_cases hd : IsInt4 params.delta
  · simp only [hd, not_true_eq_false, if_false, bind, Except.bind, pure, Except.pure] at h
    cases hcw : creditWallet db params with
    | error e => rw [hcw] at h; cases h
    | ok p =>
      obtain ⟨wallets, w⟩ := p
      rw [hcw] at h
      have hsum : IsInt4 (db.balance params.userId + params.delta) := by
        unfold creditWallet at hcw
        cases hw : db.userWallets.find? params.userId with
        | none => rw [balance_of_none hw, zero_add]; exact hd
        | some w =>
          rw [hw] at hcw
          rw [balance_of_find? hw]
          by_contra hno
          simp only [hno, not_false_eq_true, if_true] at hcw
          cases hcw
      dsimp only at h
      split at h
      · cases h
      · rename_i ledger hled
        cases ledger with
        | none => cases h
        | some rows =>
          obtain ⟨hr, ha, hk⟩ := insertLedger_some hled
          exact ⟨hd, hsum, hr, ha, hk⟩
  · simp only [hd, not_false_eq_true, if_true, bind, Except.bind, throw, throwThe,
      MonadExceptOf.throw] at h
    cases h

/-- **`applySpendInTx`**: an accepted debit posts the cost, and its clamp never bites. -/
theorem applySpendInTx_spec {db : CoinDb} {params : ApplySpendParams} (transactionId : String)
    (h : SpendAccepted db params) :
    ∃ res db', applySpendInTx db params transactionId = .ok (some (res, db')) ∧
      Posted db db' params.userId (-params.cost) (db.balance params.userId - params.cost) := by
  have hpos := h.positive
  have hfunds := h.funds
  cases hw : db.userWallets.find? params.userId with
  | none => rw [balance_of_none hw] at hfunds; omega
  | some w =>
    have hkey : w.userId = params.userId := key_of_find? hw
    rw [balance_of_find? hw] at hfunds ⊢
    let debit (w : UserWalletRow) : UserWalletRow :=
      { w with balance := max 0 (w.balance - params.cost), updatedAt := params.now }
    have hbal : (debit w).balance = w.balance - params.cost := by
      show max 0 (w.balance - params.cost) = _
      omega
    let row : CoinTransactionRow :=
      { transactionId, userId := (debit w).userId, reason := params.reason,
        amount := -params.cost, balanceAfter := (debit w).balance,
        referenceType := params.referenceType, referenceId := params.referenceId,
        idempotencyKey := params.idempotencyKey, metadata := params.metadata,
        createdAt := params.now }
    have hled : insertLedger db row = .ok (some (db.coinTransactions ++ [row])) := by
      have hamount : row.amount ≠ 0 := by show -params.cost ≠ 0; omega
      rw [insertLedger_eq db h.reason hamount (by show 0 ≤ (debit w).balance; omega),
        if_neg (by simp [row, h.fresh])]
    refine ⟨⟨debit w, -params.cost, transactionId, w.createdAt⟩,
      ⟨db.userWallets.modify params.userId debit fun _ => rfl, db.coinTransactions ++ [row]⟩,
      ?_, ⟨row, rfl, hkey, rfl, hbal⟩, ?_, ?_⟩
    · simp only [applySpendInTx, Int.not_le.mpr hpos, h.cost, not_true_eq_false, if_false, hw,
        Int.not_lt.mpr hfunds, bind, Except.bind, pure, Except.pure]
      simp only [row, debit] at hled
      rw [hled]
      rfl
    · simp only [balance, find?_modify_self hw, Option.map_some, Option.getD_some,
        hbal]
    · intro u hne
      simp only [balance, find?_modify_ne hne]

theorem SpendAccepted.of_ok {db : CoinDb} {params : ApplySpendParams} {transactionId : String}
    {res : ApplyDeltaResult} (h : applySpendInTx db params transactionId = .ok (some (res, db'))) :
    SpendAccepted db params := by
  unfold applySpendInTx at h
  by_cases hpos : params.cost ≤ 0
  · simp only [hpos, if_true, bind, Except.bind, throw, throwThe, MonadExceptOf.throw] at h
    cases h
  by_cases hc : IsInt4 params.cost
  swap
  · simp only [hpos, hc, not_false_eq_true, if_true, if_false, bind, Except.bind, pure,
      Except.pure, throw, throwThe, MonadExceptOf.throw] at h
    cases h
  simp only [hpos, hc, not_true_eq_false, if_false, bind, Except.bind, pure, Except.pure] at h
  cases hw : db.userWallets.find? params.userId with
  | none => rw [hw] at h; cases h
  | some w =>
    rw [hw] at h
    dsimp only at h
    by_cases hf : w.balance < params.cost
    · rw [if_pos hf] at h; cases h
    rw [if_neg hf] at h
    split at h
    · cases h
    · rename_i ledger hled
      cases ledger with
      | none => cases h
      | some rows =>
        obtain ⟨hr, -, hk⟩ := insertLedger_some hled
        exact ⟨by omega, hc, by rw [balance_of_find? hw]; omega, hr, hk⟩

/-! ## One transaction -/

def Accepted (db : CoinDb) : CoinStep → Prop
  | .credit params _ rest => rest = true ∧ CreditAccepted db params
  | .spend params _ rest => rest = true ∧ SpendAccepted db params

def CoinStep.userId : CoinStep → String
  | .credit params _ _ => params.userId
  | .spend params _ _ => params.userId

def CoinStep.ledgerAmount : CoinStep → Int
  | .credit params _ _ => params.delta
  | .spend params _ _ => -params.cost

def CoinStep.balanceAfter (db : CoinDb) : CoinStep → Int
  | .credit params _ _ => min 1000000 (max 0 (db.balance params.userId + params.delta))
  | .spend params _ _ => db.balance params.userId - params.cost

theorem commit_accepted {db : CoinDb} (h : Accepted db s) :
    Posted db (db.commit s) s.userId s.ledgerAmount (s.balanceAfter db) := by
  cases s with
  | credit params transactionId rest =>
    obtain ⟨rfl, hacc⟩ := h
    obtain ⟨res, db', heq, hpost⟩ := applyDeltaInTx_spec transactionId hacc
    rw [commit, heq]
    exact hpost
  | spend params transactionId rest =>
    obtain ⟨rfl, hacc⟩ := h
    obtain ⟨res, db', heq, hpost⟩ := applySpendInTx_spec transactionId hacc
    rw [commit, heq]
    exact hpost

theorem commit_rejected {db : CoinDb} (h : ¬ Accepted db s) : db.commit s = db := by
  cases s with
  | credit params transactionId rest =>
    cases heq : applyDeltaInTx db params transactionId with
    | error e => simp only [commit, heq]
    | ok p =>
      cases rest with
      | false => simp [commit, heq]
      | true => exact absurd ⟨rfl, CreditAccepted.of_ok heq⟩ h
  | spend params transactionId rest =>
    cases heq : applySpendInTx db params transactionId with
    | error e => simp only [commit, heq]
    | ok p =>
      cases p with
      | none => simp only [commit, heq]
      | some p =>
        cases rest with
        | false => simp [commit, heq]
        | true => exact absurd ⟨rfl, SpendAccepted.of_ok heq⟩ h

theorem Posted.ledgerSum {db : CoinDb} {userId : String} {amount balance : Int}
    (h : Posted db db' userId amount balance) (u : String) :
    getLedgerSum db' u = getLedgerSum db u + (if u = userId then amount else 0) := by
  obtain ⟨row, hrows, hu, ha, -⟩ := h.ledger
  unfold getLedgerSum
  rw [hrows, List.filter_append, List.map_append, List.sum_append]
  congr 1
  by_cases he : u = userId
  · simp [he, hu, ha]
  · simp [he, hu, Ne.symm he]

/-! ## Reconciliation -/

/-- The equation `findCoinMismatches` checks, for every user. -/
def Reconciled (db : CoinDb) : Prop := ∀ u, db.balance u = getLedgerSum db u

/-- Wallets are neither negative nor over the cap. -/
def WithinCap (db : CoinDb) : Prop :=
  ∀ w ∈ db.userWallets.rows, 0 ≤ w.balance ∧ w.balance ≤ 1000000

/-- The clamp of the credit bites: the ledger is about to record coins the wallet drops. -/
def Saturates (db : CoinDb) : CoinStep → Prop
  | .credit params _ rest =>
    rest = true ∧ CreditAccepted db params ∧ 1000000 < db.balance params.userId + params.delta
  | .spend .. => False

theorem withinCap_iff {db : CoinDb} :
    WithinCap db ↔ ∀ u, 0 ≤ db.balance u ∧ db.balance u ≤ 1000000 := by
  constructor
  · intro h u
    cases hw : db.userWallets.find? u with
    | none => rw [balance_of_none hw]; omega
    | some w => rw [balance_of_find? hw]; exact h w (mem_of_find? hw)
  · intro h w hmem
    have hw := find?_of_mem hmem
    rw [← balance_of_find? hw]
    exact h w.userId

theorem findCoinMismatches_eq_nil {db : CoinDb} (alive : String → Bool) (hr : Reconciled db)
    (hc : WithinCap db) : findCoinMismatches alive db = [] := by
  have hnone : (db.userWallets.rows.filter fun w =>
      alive w.userId && (w.balance < 0 || w.balance ≠ getLedgerSum db w.userId)) = [] := by
    refine List.filter_eq_nil_iff.mpr ?_
    intro w hw
    have hbal := balance_of_find? (find?_of_mem hw)
    have hsum := hr w.userId
    have hnn := (hc w hw).1
    simp [← hsum, hbal, Int.not_lt.mpr hnn]
  rw [findCoinMismatches, hnone]
  rfl

/-- The three things the nightly check relies on, along a whole run from the empty tables: the
balances are the ledger sums, the wallets are within the cap, and a ledger row a step writes
carries the balance the step leaves. -/
structure LedgerSound (steps : List CoinStep) : Prop where
  reconciled : ∀ pre, pre <+: steps → ∀ db, exec step empty pre = some db →
    Reconciled db ∧ WithinCap db
  balanceAfter : ∀ pre s, pre ++ [s] <+: steps → ∀ db db' : CoinDb,
    exec step empty pre = some db →
    exec step empty (pre ++ [s]) = some db' →
    db'.coinTransactions = db.coinTransactions ∨
      ∃ row, db'.coinTransactions = db.coinTransactions ++ [row] ∧
        row.balanceAfter = db'.balance row.userId

theorem Reconciled.commit {db : CoinDb} (hr : Reconciled db)
    (hc : ∀ u, 0 ≤ db.balance u ∧ db.balance u ≤ 1000000) (hpos : 0 < s.amount)
    (hs : ¬ Saturates db s) :
    Reconciled (db.commit s) ∧
      ∀ u, 0 ≤ (db.commit s).balance u ∧ (db.commit s).balance u ≤ 1000000 := by
  by_cases hacc : Accepted db s
  swap
  · rw [commit_rejected hacc]; exact ⟨hr, hc⟩
  have hpost := commit_accepted hacc
  have hnew : s.balanceAfter db = db.balance s.userId + s.ledgerAmount ∧
      0 ≤ s.balanceAfter db ∧ s.balanceAfter db ≤ 1000000 := by
    cases s with
    | credit params transactionId rest =>
      have hle : db.balance params.userId + params.delta ≤ 1000000 :=
        Int.not_lt.mp fun hlt => hs ⟨hacc.1, hacc.2, hlt⟩
      have hnn := (hc params.userId).1
      have hdelta : 0 < params.delta := hpos
      simp only [balanceAfter, userId, ledgerAmount]
      omega
    | spend params transactionId rest =>
      have hfunds := hacc.2.funds
      have hcap := (hc params.userId).2
      have hcost : 0 < params.cost := hpos
      simp only [balanceAfter, userId, ledgerAmount]
      omega
  refine ⟨?_, ?_⟩
  · intro u
    rw [hpost.ledgerSum u]
    by_cases hu : u = s.userId
    · subst hu
      rw [if_pos rfl, hpost.balance, hnew.1, hr]
    · rw [if_neg hu, hpost.frame u hu, hr, Int.add_zero]
  · intro u
    by_cases hu : u = s.userId
    · subst hu
      rw [hpost.balance]
      exact hnew.2
    · rw [hpost.frame u hu]
      exact hc u

theorem Saturates.not_reconciled {db : CoinDb} (hs : Saturates db s) (hr : Reconciled db) :
    ¬ Reconciled (db.commit s) := by
  cases s with
  | spend params transactionId rest => exact hs.elim
  | credit params transactionId rest =>
    obtain ⟨hrest, hacc, hlt⟩ := hs
    have hpost : Posted db (db.commit (.credit params transactionId rest)) params.userId
        params.delta (min 1000000 (max 0 (db.balance params.userId + params.delta))) :=
      commit_accepted (s := .credit params transactionId rest) ⟨hrest, hacc⟩
    intro hr'
    have hbal := hr' params.userId
    rw [hpost.ledgerSum, ← hr params.userId, hpost.balance, if_pos rfl] at hbal
    omega

theorem exec_step_snoc {pre : List CoinStep} {db : CoinDb}
    (h : exec step empty pre = some db)
    (h' : exec step empty (pre ++ [s]) = some db') : db' = db.commit s := by
  obtain ⟨m, hm, hs⟩ := exec_snoc.mp h'
  rw [h, Option.some.injEq] at hm
  rw [step, ← hm, Option.some.injEq] at hs
  exact hs.symm

/-- **The ledger reconciles along a run of positive amounts exactly when no committed credit
runs into the cap.** -/
theorem ledgerSound_iff_never_saturates (steps : List CoinStep)
    (hpos : ∀ s ∈ steps, 0 < s.amount) :
    LedgerSound steps ↔
      Along CoinDb.step (fun db s => ¬ Saturates db s) CoinDb.empty steps := by
  constructor
  · intro h
    refine along_iff.mpr ?_
    intro pre s hp db hdb hsat
    have hpre := (h.reconciled pre ((List.prefix_append pre [s]).trans hp) db hdb).1
    have hnext : exec CoinDb.step CoinDb.empty (pre ++ [s]) = some (db.commit s) :=
      exec_snoc.mpr ⟨db, hdb, rfl⟩
    exact hsat.not_reconciled hpre (h.reconciled _ hp _ hnext).1
  · intro h
    -- the run condition carries the amounts' signs along
    have hboth : Along CoinDb.step (fun db s => ¬ Saturates db s ∧ 0 < s.amount)
        CoinDb.empty steps :=
      along_iff.mpr fun pre s hp db hdb =>
        ⟨along_iff.mp h pre s hp db hdb, hpos s (hp.subset (by simp))⟩
    refine ⟨?_, ?_⟩
    · intro pre hp db hdb
      rw [withinCap_iff]
      refine (hboth.of_prefix hp).invariant (I := fun db => Reconciled db ∧
        ∀ u, 0 ≤ db.balance u ∧ db.balance u ≤ 1000000) ?_ hdb ⟨fun u => rfl, ?_⟩
      · rintro db s db' ⟨hr, hc⟩ ⟨hsat, hamount⟩ hstep
        cases hstep
        exact hr.commit hc hamount hsat
      · intro u
        show 0 ≤ (0 : Int) ∧ (0 : Int) ≤ 1000000
        decide
    · intro pre s hp db db' hdb hdb'
      rw [exec_step_snoc hdb hdb']
      by_cases hacc : Accepted db s
      · have hpost := commit_accepted hacc
        obtain ⟨row, hrows, hu, -, hb⟩ := hpost.ledger
        exact .inr ⟨row, hrows, by rw [hu, hb, hpost.balance]⟩
      · exact .inl (by rw [commit_rejected hacc])

/-- A reward of `delta` coins to one user, under its own key. -/
def reward (delta : Int) (idempotencyKey : String) : CoinStep :=
  .credit
    { userId := "01900000-0000-7000-8000-000000000001", delta, reason := "BADGE_REWARD",
      referenceType := .badge, referenceId := none, idempotencyKey, now := 0,
      expectedDelta := delta, metadata := "" } ("tx:" ++ idempotencyKey) true

theorem ledgerSound_of_two_rewards : LedgerSound [reward 50 "a", reward 25 "b"] := by
  refine (ledgerSound_iff_never_saturates [reward 50 "a", reward 25 "b"] (by decide)).mpr ?_
  refine ⟨fun h => absurd h.2.2 (by decide), ?_⟩
  intro db hdb
  cases hdb
  exact ⟨fun h => absurd h.2.2 (by decide), fun _ _ => trivial⟩

/-- A full wallet takes no more coins, and the ledger records them all the same. -/
theorem ledger_drifts_at_the_cap :
    (∀ s ∈ [reward 1000000 "a", reward 5 "b"], 0 < s.amount) ∧
      ¬ LedgerSound [reward 1000000 "a", reward 5 "b"] := by
  refine ⟨by decide, ?_⟩
  intro h
  have hend := (h.reconciled _ (List.prefix_refl _) _ rfl).1
  exact absurd (hend "01900000-0000-7000-8000-000000000001") (by decide)

end QuizBackend.Coins
