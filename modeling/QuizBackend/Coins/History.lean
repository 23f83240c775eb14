import QuizBackend.Lib.Base64
import QuizBackend.Lib.CursorOrder
import QuizBackend.Lib.Json
import QuizBackend.Lib.Table
import QuizBackend.Lib.Uuid
import Mathlib.Algebra.Order.Floor.Defs
import Mathlib.Data.Prod.Lex
import Mathlib.Data.Rat.Floor

/-!
# The history of a user's coins

The history is listed by time and id, the newest first, a page at a time. A cursor is the time and the
id of the last row of a page, as a JSON text in `base64url`; it is opaque to whoever carries it, and is
read back as what it was (`decodeCursor_encodeCursor`). A cursor that cannot be read is no cursor, and
leads to the first page.

A transaction that is added while a user turns the pages comes before all that is there, so it is past
no cursor: the pages after the first are those of the ledger as it was (`listMyTransactions_eq`).

How PostgreSQL writes a `timestamptz` and reads it is given (`timestampText`, `timestamptz`), and so is
what a buffer that is no UTF-8 becomes (`malformed`).
-/

namespace QuizBackend.Coins.History

open Lib

structure CoinTransactionRow where
  transactionId : Uuid
  userId : Uuid
  reason : String
  amount : Int
  balanceAfter : Int
  referenceType : Option String := none
  referenceId : Option String := none
  metadata : String := "\x7b\x7d"
  createdAt : Int
  deriving DecidableEq

abbrev Ledger := Table Uuid CoinTransactionRow (·.transactionId)

/-! ## The limit -/

inductive JsNumber
  | notFinite
  | finite (value : ℚ)

def defaultTransactionsLimit : Nat := 20

def maxTransactionsLimit : Nat := 50

def clampLimit (limit : Option JsNumber) : Nat :=
  match limit with
  | none | some .notFinite => defaultTransactionsLimit
  | some (.finite value) =>
    if value < 1 then 1
    else if maxTransactionsLimit < value then maxTransactionsLimit
    else ⌊value⌋.toNat

theorem clampLimit_pos (limit : Option JsNumber) : 0 < clampLimit limit := by
  unfold clampLimit
  split
  · decide
  · decide
  · split
    · exact Nat.one_pos
    · next hlow =>
      split
      · decide
      · have hfloor : (1 : Int) ≤ ⌊_⌋ := Int.le_floor.mpr (by exact_mod_cast not_lt.mp hlow)
        exact Int.lt_toNat.mpr hfloor

/-! ## The cursor -/

structure CursorPayload where
  createdAt : String
  transactionId : String

def encodeCursor (payload : CursorPayload) : String :=
  Base64.encode (Json.stringify
    [("createdAt", payload.createdAt), ("transactionId", payload.transactionId)]).toUTF8

section Cursor

variable (malformed : ByteArray → String)

def bufferText (raw : String) : String :=
  let buffer := Base64.decode raw
  (String.fromUTF8? buffer).getD (malformed buffer)

def decodeCursor (raw : Option String) : Option CursorPayload :=
  match raw with
  | none => none
  | some raw =>
    if raw = "" then none
    else (Json.parse (bufferText malformed raw)).bind fun parsed =>
      match parsed.member? "createdAt", parsed.member? "transactionId" with
      | some (.str createdAt), some (.str transactionId) => some ⟨createdAt, transactionId⟩
      | _, _ => none

/-- **A cursor is read back as what it was.** -/
theorem decodeCursor_encodeCursor (payload : CursorPayload) :
    decodeCursor malformed (some (encodeCursor payload)) = some payload := by
  have htext : bufferText malformed (encodeCursor payload) = Json.stringify
      [("createdAt", payload.createdAt), ("transactionId", payload.transactionId)] := by
    rw [bufferText, encodeCursor, Base64.decode_encode, String.toUTF8_eq_toByteArray, String.fromUTF8?,
      dif_pos (String.isValidUTF8 _)]
    rfl
  have hne : encodeCursor payload ≠ "" := by
    refine Base64.encode_ne_empty fun hempty => ?_
    have hnil := congrArg String.toList (String.toByteArray_inj.mp (hempty.trans String.toByteArray_empty.symm))
    rw [Json.stringify, String.toList_ofList] at hnil
    cases hnil
  rw [decodeCursor, if_neg hne, htext, Json.parse_stringify]
  rfl

end Cursor

/-! ## A page -/

section Page

variable (malformed : ByteArray → String) (timestampText : Int → String)
  (timestamptz : String → Option Int)

def position (row : CoinTransactionRow) : Int ×ₗ Nat :=
  toLex (row.createdAt, row.transactionId.bits.toNat)

def listTransactions (ledger : Ledger) (userId : Uuid) (cursor : Option CursorPayload) (limit : Nat) :
    Except String (List CoinTransactionRow) := do
  let past ← match cursor with
    | none => pure none
    | some c =>
      match timestamptz c.createdAt, Uuid.parse c.transactionId with
      | some createdAt, some transactionId => pure (some (toLex (createdAt, transactionId.bits.toNat)))
      | none, _ => throw s!"invalid input syntax for type timestamp with time zone: {c.createdAt}"
      | _, none => throw s!"invalid input syntax for type uuid: {c.transactionId}"
  let rows := ledger.rows.filter fun row =>
    past.all (fun place => decide (position row < place)) && decide (row.userId = userId)
  return (descending position rows).take limit

def cursorOf (row : CoinTransactionRow) : CursorPayload :=
  ⟨timestampText row.createdAt, row.transactionId.text⟩

def listMyTransactions (ledger : Ledger) (userId : Uuid) (limit : Option JsNumber)
    (cursor : Option String) : Except String (List CoinTransactionRow × Option String) := do
  let effectiveLimit := clampLimit limit
  let rows ← listTransactions timestamptz ledger userId (decodeCursor malformed cursor)
    (effectiveLimit + 1)
  return lookAhead (fun row => encodeCursor (cursorOf timestampText row)) effectiveLimit rows

def history (ledger : Ledger) (userId : Uuid) : List CoinTransactionRow :=
  descending position (ledger.rows.filter fun row => decide (row.userId = userId))

/-- Transactions have been added, and those of the user come after the ones that were there. -/
def GrownFrom (first : Ledger) (userId : Uuid) (ledger : Ledger) : Prop :=
  ∃ added, ledger.rows = first.rows ++ added ∧ ∀ row ∈ added, row.userId = userId →
    ∀ old ∈ first.rows, old.userId = userId → position old < position row

/-- The place a cursor stands for. -/
def placeOf (raw : String) : Int ×ₗ Nat :=
  ((decodeCursor malformed (some raw)).bind fun c => (timestamptz c.createdAt).bind fun createdAt =>
    (Uuid.parse c.transactionId).map fun transactionId =>
      toLex (createdAt, transactionId.bits.toNat)).getD (toLex (0, 0))

def answer (ledger : Ledger) (userId : Uuid) (limit : Option JsNumber) :
    Option String → Except String (List CoinTransactionRow × Option String) :=
  request String (fun c row => decide (position row < placeOf malformed timestamptz c))
    (fun row => encodeCursor (cursorOf timestampText row)) (clampLimit limit) (history ledger userId)

variable {malformed timestampText timestamptz}

theorem nodup_position (ledger : Ledger) (p : CoinTransactionRow → Bool) :
    ((ledger.rows.filter p).map position).Nodup := by
  have hids : ((ledger.rows.filter p).map CoinTransactionRow.transactionId).Nodup :=
    ledger.nodup.sublist (List.filter_sublist.map _)
  refine nodup_of_determines hids fun row other h => Uuid.eq_of_toNat_eq ?_
  exact congrArg (fun k : Int ×ₗ Nat => (ofLex k).2) h

theorem placeOf_cursorOf {row : CoinTransactionRow}
    (hread : timestamptz (timestampText row.createdAt) = some row.createdAt) :
    placeOf malformed timestamptz (encodeCursor (cursorOf timestampText row)) = position row := by
  simp only [placeOf, decodeCursor_encodeCursor, cursorOf, Option.bind_some, hread, Uuid.parse_text,
    Option.map_some, Option.getD_some, position]

variable {first ledger : Ledger} {userId : Uuid} {limit : Option JsNumber}

theorem listMyTransactions_none :
    listMyTransactions malformed timestampText timestamptz first userId limit none =
      answer malformed timestampText timestamptz first userId limit none := by
  rw [answer, request, after_none, history]
  rfl

/-- **To a cursor of the first ledger the ledger answers as it was.** -/
theorem listMyTransactions_eq (hgrown : GrownFrom first userId ledger) {row : CoinTransactionRow}
    (hrow : row ∈ history first userId)
    (hread : timestamptz (timestampText row.createdAt) = some row.createdAt) :
    listMyTransactions malformed timestampText timestamptz ledger userId limit
        (some (encodeCursor (cursorOf timestampText row))) =
      answer malformed timestampText timestamptz first userId limit (some (encodeCursor (cursorOf timestampText row))) := by
  obtain ⟨added, hadded, hnewer⟩ := hgrown
  obtain ⟨hold, huser⟩ := List.mem_filter.mp (mem_descending.mp hrow)
  have hnone : added.filter (fun x => decide (position x < position row) && decide (x.userId = userId))
      = [] := by
    refine List.filter_eq_nil_iff.mpr fun x hx hboth => ?_
    simp only [Bool.and_eq_true, decide_eq_true_iff] at hboth
    exact lt_asymm hboth.1 (hnewer x hx hboth.2 row hold (of_decide_eq_true huser))
  have hrows : listTransactions timestamptz ledger userId (some (cursorOf timestampText row))
      (clampLimit limit + 1) = .ok ((after (fun c row => decide (position row < placeOf malformed timestamptz c))
        (history first userId) (some (encodeCursor (cursorOf timestampText row)))).take
          (clampLimit limit + 1)) := by
    rw [after, history, ← descending_filter (nodup_position ..), List.filter_filter]
    simp only [Option.all_some, placeOf_cursorOf hread]
    simp only [listTransactions, cursorOf, hread, Uuid.parse_text, hadded]
    have hfilter : (first.rows ++ added).filter
        (fun x => decide (position x < position row) && decide (x.userId = userId)) =
          first.rows.filter fun x => decide (position x < position row) && decide (x.userId = userId) := by
      rw [List.filter_append, hnone, List.append_nil]
    exact congrArg (fun rows => Except.ok ((descending position rows).take _)) hfilter
  rw [answer, request, listMyTransactions, decodeCursor_encodeCursor, hrows]
  rfl

variable (malformed timestampText timestamptz) in
/-- **The history pages completely, whatever is added in between.** With as many requests as it takes,
each with the ledger as it then is, whoever follows the cursors is given the user's transactions of the
first ledger, each once, the newest first; and every cursor is read back as what it was. -/
theorem coin_history_pages_completely (first : Ledger) (userId : Uuid) (limit : Option JsNumber)
    (hread : ∀ row ∈ first.rows, timestamptz (timestampText row.createdAt) = some row.createdAt) :
    (∃ n, ∀ later : List Ledger, n ≤ later.length →
      (∀ ledger ∈ later, GrownFrom first userId ledger) →
      follow (fun ledger (_ : Unit) cursor =>
          (listMyTransactions malformed timestampText timestamptz ledger userId limit cursor, ()))
        (first :: later) () none = some (history first userId)) ∧
    ∀ payload, decodeCursor malformed (some (encodeCursor payload)) = some payload := by
  refine ⟨?_, decodeCursor_encodeCursor malformed⟩
  have hplace : ∀ row ∈ first.rows.filter fun row => decide (row.userId = userId),
      placeOf malformed timestamptz (encodeCursor (cursorOf timestampText row)) = position row :=
    fun row hrow => placeOf_cursorOf (hread row (List.mem_of_mem_filter hrow))
  obtain ⟨n, hwalk⟩ := pages_descending (ε := String) (clampLimit_pos limit) hplace
    (nodup_position first _)
  refine ⟨n, fun later hn hgrown => ?_⟩
  have hfollow : follow (fun ledger (_ : Unit) cursor =>
      (listMyTransactions malformed timestampText timestamptz ledger userId limit cursor, ()))
        (first :: later) () none =
      walk (answer malformed timestampText timestamptz first userId limit) (later.length + 1) none := by
    refine follow_eq_walk (P := fun cursor => ∃ row ∈ history first userId,
      cursor = some (encodeCursor (cursorOf timestampText row))) listMyTransactions_none ?_ ?_
    · rintro ledger hledger - ⟨row, hrow, rfl⟩
      exact listMyTransactions_eq (hgrown ledger hledger) hrow
        (hread row (List.mem_of_mem_filter (mem_descending.mp hrow)))
    · intro cursor items next hanswer
      obtain ⟨row, hrow, hnext⟩ := cursorOf_of_request hanswer
      exact ⟨row, hrow, congrArg some hnext⟩
  exact hfollow.trans (walk_of_le (Nat.le_succ_of_le hn) hwalk)

end Page

def secondText (microseconds : Int) : String :=
  s!"1970-01-01 00:00:0{microseconds / 1000000}+00"

def readSecond (text : String) : Option Int :=
  ((List.range 10).map fun second => (second : Int) * 1000000).find? fun t => secondText t = text

def tip (transactionId userId : Uuid) (createdAt : Int) : CoinTransactionRow :=
  { transactionId, userId, reason := "TIP_SENT", amount := -25, balanceAfter := 100, createdAt }

def twoTips : Ledger := ⟨[tip 1 7 3000000, tip 2 8 3000000, tip 3 7 3000000], by decide⟩

def threeTips : Ledger := ⟨twoTips.rows ++ [tip 4 7 5000000], by decide⟩

/-- One on a page, while a third one is added. -/
theorem two_tips_page_completely : ∃ later : List Ledger, later.head? = some threeTips ∧
    follow (fun ledger (_ : Unit) cursor =>
        (listMyTransactions (fun _ => "") secondText readSecond ledger 7 (some (.finite 1)) cursor, ()))
      (twoTips :: later) () none = some [tip 3 7 3000000, tip 1 7 3000000] := by
  obtain ⟨⟨n, hpages⟩, -⟩ := coin_history_pages_completely (fun _ => "") secondText readSecond twoTips 7
    (some (.finite 1)) (by decide +kernel)
  have hgrown : GrownFrom twoTips 7 threeTips := ⟨[tip 4 7 5000000], rfl, by decide⟩
  refine ⟨List.replicate (n + 1) threeTips, rfl, ?_⟩
  rw [hpages (List.replicate (n + 1) threeTips) (by simp) fun ledger hledger =>
    List.eq_of_mem_replicate hledger ▸ hgrown]
  decide

end QuizBackend.Coins.History
