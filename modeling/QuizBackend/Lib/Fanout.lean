import QuizBackend.Lib.Grouping
import Mathlib.Algebra.BigOperators.Group.List.Basic
import Mathlib.Algebra.GroupWithZero.Nat
import Mathlib.Data.List.Dedup
import Mathlib.Data.List.Flatten

/-!
# Aggregates over a chain of left joins

Where two left joins go out from the same row, its matches in one are repeated for each of its matches in
the other. An aggregate over the joined rows counts a row once for every pair. What it collects can be
read off by going from left row to left row (`flatMap_leftJoin`, `filterMap_leftJoin`): a row without
matches is there once, with nothing beside it (`orNull`). A count is right only if nothing is repeated
(`sum_eq_length_iff`); `COUNT(DISTINCT …)` does not mind (`length_dedup_congr`).
-/

namespace QuizBackend.Lib

variable {α β δ : Type}

/-- The right sides of a left join for one row: its matches, or the one null. -/
def orNull (matches_ : List β) : List (Option β) :=
  if matches_.isEmpty then [none] else matches_.map some

section OrNull

variable {ys : List β}

/-- Without matches there is the null. -/
@[simp] theorem orNull_nil : orNull ([] : List β) = [none] := rfl

/-- With matches there is no null. -/
@[simp] theorem orNull_cons (y : β) (ys : List β) : orNull (y :: ys) = some y :: ys.map some := rfl

/-- A row is repeated for each of its matches, and is there once without any. -/
theorem length_orNull : (orNull ys).length = max 1 ys.length := by
  cases ys with
  | nil => rfl
  | cons y ys => simp

/-- It is there once just where it has no second match. -/
theorem length_orNull_eq_one_iff : (orNull ys).length = 1 ↔ ys.length ≤ 1 := by
  rw [length_orNull]
  omega

/-- It is never left out. -/
theorem orNull_ne_nil : orNull ys ≠ [] := by
  cases ys with
  | nil => simp
  | cons y ys => simp

/-- What ignores nulls sees the matches only. -/
theorem flatMap_orNull {h : Option β → List δ} (hnull : h none = []) :
    (orNull ys).flatMap h = ys.flatMap fun y => h (some y) := by
  cases ys with
  | nil => rw [orNull_nil, List.flatMap_singleton, hnull, List.flatMap_nil]
  | cons y ys => rw [orNull_cons, List.flatMap_cons, List.flatMap_cons, List.flatMap_map]

/-- Dropping the null gives the matches back. -/
theorem filterMap_orNull (f : β → δ) : (orNull ys).filterMap (fun y => y.map f) = ys.map f := by
  cases ys with
  | nil => rfl
  | cons y ys =>
    rw [orNull_cons, ← List.map_cons, List.filterMap_map]
    exact congrFun (List.filterMap_eq_map (f := f)) _

end OrNull

section Join

variable {matching : α → List β} {l : List α}

/-- A left join goes from left row to left row. -/
theorem leftJoin_eq :
    leftJoin matching l = l.flatMap fun a => (orNull (matching a)).map fun b => (a, b) := by
  refine congrArg (fun f => l.flatMap f) (funext fun a => ?_)
  cases matching a with
  | nil => rfl
  | cons b bs => simp

/-- What is collected over a join is collected row by row. -/
theorem flatMap_leftJoin (h : α × Option β → List δ) :
    (leftJoin matching l).flatMap h =
      l.flatMap fun a => (orNull (matching a)).flatMap fun b => h (a, b) := by
  rw [leftJoin_eq, List.flatMap_assoc]
  simp only [List.flatMap_map]

/-- The same, where at most one thing is collected for each pair. -/
theorem filterMap_leftJoin (g : α × Option β → Option δ) :
    (leftJoin matching l).filterMap g =
      l.flatMap fun a => (orNull (matching a)).filterMap fun b => g (a, b) := by
  rw [leftJoin_eq, List.filterMap_flatMap]
  simp only [List.filterMap_map, Function.comp_def]

end Join

/-! ## Counting -/

/-- **A count of joined rows** is that of the left rows just where none is repeated. -/
theorem sum_eq_length_iff {f : α → Nat} {l : List α} (h : ∀ a ∈ l, 1 ≤ f a) :
    (l.map f).sum = l.length ↔ ∀ a ∈ l, f a = 1 := by
  induction l with
  | nil => simp
  | cons a l ih =>
    have ha := h a List.mem_cons_self
    have hl := ih fun b hb => h b (List.mem_cons_of_mem a hb)
    have hle : l.length ≤ (l.map f).sum := by
      have hones := List.length_le_sum_of_one_le (l.map f) fun n hn => by
        obtain ⟨b, hb, rfl⟩ := List.mem_map.mp hn
        exact h b (List.mem_cons_of_mem a hb)
      rwa [List.length_map] at hones
    rw [List.map_cons, List.sum_cons, List.length_cons, List.forall_mem_cons, ← hl]
    omega

/-- A sum of ones and zeros is a count. -/
theorem sum_map_eq_countP {f : α → Nat} {p : α → Bool} {l : List α}
    (h : ∀ a ∈ l, f a = if p a then 1 else 0) : (l.map f).sum = l.countP p := by
  induction l with
  | nil => rfl
  | cons a l ih =>
    rw [List.map_cons, List.sum_cons, List.countP_cons, h a List.mem_cons_self,
      ih fun b hb => h b (List.mem_cons_of_mem a hb), Nat.add_comm]

/-- **`COUNT(DISTINCT …)`** depends on which values occur, not on how often. -/
theorem length_dedup_congr [DecidableEq δ] {xs ys : List δ} (h : ∀ x, x ∈ xs ↔ x ∈ ys) :
    xs.dedup.length = ys.dedup.length := by
  refine ((List.perm_ext_iff_of_nodup (List.nodup_dedup xs) (List.nodup_dedup ys)).mpr ?_).length_eq
  intro x
  rw [List.mem_dedup, List.mem_dedup]
  exact h x

end QuizBackend.Lib
