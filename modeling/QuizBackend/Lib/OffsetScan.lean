import Mathlib.Data.List.Basic

/-!
# Reading queries with an offset

A job that reads a query with `LIMIT` and `OFFSET` counts the offset up by the limit until a page is
not full. `scan` is that loop, for a query whose result stays as it is, with a visit to every row:
from its offset on it misses nothing (`scan_eq`).

Where several queries are read one after the other and the offset is not put back, the next query
starts where the one before has left it. What is visited then is `reached`: of the first query
everything, of a later one the rows behind an offset that has nothing to do with it.
-/

namespace QuizBackend.Lib

variable {σ α : Type}

/-- The loop over the pages of a query: the offset and the state it leaves. No page is read beyond
the fuel. -/
def scan (visit : σ → α → σ) (rows : List α) (limit : Nat) : Nat → Nat → σ → Nat × σ
  | 0, offset, s => (offset, s)
  | fuel + 1, offset, s =>
    let page := (rows.drop offset).take limit
    -- `break` leaves the offset alone
    if page.length = 0 then (offset, s)
    else if page.length < limit then (offset + limit, page.foldl visit s)
    else scan visit rows limit fuel (offset + limit) (page.foldl visit s)

/-- The offset the loop leaves after a query with so many rows: a limit for each page that is not
empty. -/
def offsetAfter (limit total offset : Nat) : Nat :=
  offset + limit * ((total - offset + (limit - 1)) / limit)

section Scan

variable {visit : σ → α → σ} {rows : List α} {limit : Nat}

theorem offsetAfter_of_le {total offset : Nat} (hlimit : 0 < limit) (h : total ≤ offset) :
    offsetAfter limit total offset = offset := by
  have hnone : (total - offset + (limit - 1)) / limit = 0 := by
    rw [Nat.sub_eq_zero_of_le h, Nat.zero_add]
    exact Nat.div_eq_of_lt (Nat.sub_lt hlimit Nat.one_pos)
  rw [offsetAfter, hnone, Nat.mul_zero, Nat.add_zero]

theorem offsetAfter_add {total offset : Nat} (hlimit : 0 < limit) (h : offset < total) :
    offsetAfter limit total offset = offsetAfter limit total (offset + limit) := by
  unfold offsetAfter
  by_cases hlast : total ≤ offset + limit
  · have hone : (total - offset + (limit - 1)) / limit = 1 := by
      rw [Nat.div_eq_iff hlimit]
      omega
    have hnone : (total - (offset + limit) + (limit - 1)) / limit = 0 :=
      Nat.div_eq_of_lt (by omega)
    rw [hone, hnone]
    omega
  · have hsplit : total - offset + (limit - 1) =
        total - (offset + limit) + (limit - 1) + limit := by omega
    rw [hsplit, Nat.add_div_right _ hlimit, Nat.mul_succ]
    omega

/-- **The loop misses nothing**: with enough fuel it visits all rows from its offset on. -/
theorem scan_eq (hlimit : 0 < limit) {fuel offset : Nat} (hfuel : rows.length - offset < fuel)
    (s : σ) :
    scan visit rows limit fuel offset s =
      (offsetAfter limit rows.length offset, (rows.drop offset).foldl visit s) := by
  induction fuel generalizing offset s with
  | zero => exact absurd hfuel (Nat.not_lt_zero _)
  | succ fuel ih =>
    have hlength : ((rows.drop offset).take limit).length = min limit (rows.length - offset) := by
      rw [List.length_take, List.length_drop]
    unfold scan
    dsimp only
    split_ifs with hempty hlast
    · have hle : rows.length ≤ offset := by omega
      rw [offsetAfter_of_le hlimit hle, List.drop_eq_nil_of_le hle, List.foldl_nil]
    · have htake : (rows.drop offset).take limit = rows.drop offset :=
        List.take_of_length_le (by rw [List.length_drop]; omega)
      rw [htake, offsetAfter_add hlimit (by omega), offsetAfter_of_le hlimit (by omega)]
    · -- the page is full: what is behind it is what the next round starts with
      have hrest : rows.drop offset =
          (rows.drop offset).take limit ++ rows.drop (offset + limit) := by
        rw [← List.drop_drop, List.take_append_drop]
      rw [ih (by omega), ← offsetAfter_add hlimit (by omega), ← List.foldl_append, ← hrest]

end Scan

/-! ## One offset for several queries -/

def reached (limit : Nat) : Nat → List (List α) → List α
  | _, [] => []
  | offset, rows :: queries =>
    rows.drop offset ++ reached limit (offsetAfter limit rows.length offset) queries

variable {limit offset : Nat} {queries : List (List α)} {a : α}

theorem exists_of_mem_reached (h : a ∈ reached limit offset queries) : ∃ rows ∈ queries, a ∈ rows := by
  induction queries generalizing offset with
  | nil => cases h
  | cons rows queries ih =>
    rcases List.mem_append.mp h with hfirst | hlater
    · exact ⟨rows, List.mem_cons_self, List.mem_of_mem_drop hfirst⟩
    · obtain ⟨rows', hrows', ha⟩ := ih hlater
      exact ⟨rows', List.mem_cons_of_mem _ hrows', ha⟩

end QuizBackend.Lib
