import Mathlib.Algebra.Order.Group.Nat
import Mathlib.Algebra.BigOperators.Group.List.Basic
import Mathlib.Data.List.Induction
import Mathlib.Tactic.Ring

/-!
# A mean kept with its count and rounded at every step

The state is the count and the mean of what has been added, rounded to a whole number of units. What
a step rounds off is multiplied by the count in the next one, so the errors add up: after `n` values
the product of count and mean is off from the sum by at most about `n² / 4` (`Mean.drift`). Once the
count has passed twice the largest value the mean no longer moves at all (`Mean.avg_foldl_of_large`).
-/

namespace QuizBackend.Lib

/-- `x / n` to the nearest whole number, a half upwards. -/
def roundHalfUp (x n : Nat) : Nat := (2 * x + n) / (2 * n)

/-- How many values there are, and their mean in units. -/
structure Mean where
  count : Nat
  avg : Nat

/-- No value yet. -/
def Mean.zero : Mean := ⟨0, 0⟩

/-- One more value: the sum is taken to be count times mean. -/
def Mean.add (m : Mean) (x : Nat) : Mean :=
  ⟨m.count + 1, roundHalfUp (m.avg * m.count + x) (m.count + 1)⟩

theorem Mean.avg_add (m : Mean) (x : Nat) :
    (m.add x).avg = roundHalfUp (m.avg * m.count + x) (m.count + 1) := rfl

/-- The mean that is kept when the values come one after the other. -/
def meanOf (xs : List Nat) : Mean := xs.foldl Mean.add Mean.zero

variable {x n : Nat} {xs : List Nat}

theorem meanOf_concat (xs : List Nat) (x : Nat) : meanOf (xs ++ [x]) = (meanOf xs).add x := by
  simp [meanOf]

theorem meanOf_count (xs : List Nat) : (meanOf xs).count = xs.length := by
  induction xs using List.reverseRecOn with
  | nil => rfl
  | append_singleton xs x ih => rw [meanOf_concat, List.length_append, ← ih]; rfl

theorem roundHalfUp_spec (x n : Nat) :
    roundHalfUp x (n + 1) * (n + 1) ≤ x + (n + 1) / 2 ∧
      x ≤ roundHalfUp x (n + 1) * (n + 1) + n / 2 := by
  unfold roundHalfUp
  have hdiv := Nat.div_add_mod (2 * x + (n + 1)) (2 * (n + 1))
  have hmod := Nat.mod_lt (2 * x + (n + 1)) (show 0 < 2 * (n + 1) by omega)
  generalize (2 * x + (n + 1)) / (2 * (n + 1)) = q at hdiv ⊢
  have hq : 2 * (n + 1) * q = 2 * (q * (n + 1)) := by ring
  omega

theorem roundHalfUp_eq_iff {q : Nat} : roundHalfUp x (n + 1) = q ↔
    2 * (q * (n + 1)) ≤ 2 * x + (n + 1) ∧ 2 * x + (n + 1) < 2 * ((q + 1) * (n + 1)) := by
  have hpos : 0 < 2 * (n + 1) := by omega
  have hcomm : ∀ r, 2 * (r * (n + 1)) = r * (2 * (n + 1)) := fun r => by ring
  rw [roundHalfUp, hcomm, hcomm, ← Nat.le_div_iff_mul_le hpos, ← Nat.div_lt_iff_lt_mul hpos]
  omega

theorem quarter_square_succ (n : Nat) : (n + 1) * (n + 1) / 4 = n * n / 4 + (n + 1) / 2 := by
  obtain ⟨k, rfl | rfl⟩ := Nat.even_or_odd' n
  · have h1 : (2 * k + 1) * (2 * k + 1) = 4 * (k * k + k) + 1 := by ring
    have h2 : 2 * k * (2 * k) = 4 * (k * k) := by ring
    omega
  · have h1 : (2 * k + 1 + 1) * (2 * k + 1 + 1) = 4 * (k * k + 2 * k + 1) := by ring
    have h2 : (2 * k + 1) * (2 * k + 1) = 4 * (k * k + k) + 1 := by ring
    omega

/-- **How far the mean can drift.** Count times mean exceeds the sum by at most `n² / 4`, and falls
short of it by at most `(n - 1)² / 4`. -/
theorem Mean.drift (xs : List Nat) :
    (meanOf xs).avg * xs.length ≤ xs.sum + xs.length * xs.length / 4 ∧
      xs.sum ≤ (meanOf xs).avg * xs.length + (xs.length - 1) * (xs.length - 1) / 4 := by
  induction xs using List.reverseRecOn with
  | nil => decide
  | append_singleton xs x ih =>
    obtain ⟨hup, hdown⟩ := ih
    rw [meanOf_concat, Mean.avg_add, meanOf_count, List.length_append, List.length_singleton,
      List.sum_append, List.sum_singleton, Nat.add_sub_cancel, quarter_square_succ]
    obtain ⟨hle, hge⟩ := roundHalfUp_spec ((meanOf xs).avg * xs.length + x) xs.length
    refine ⟨by omega, ?_⟩
    -- what the step loses takes the square of `n - 1` to the square of `n`
    have hsquare : xs.length * xs.length / 4 =
        (xs.length - 1) * (xs.length - 1) / 4 + xs.length / 2 := by
      cases xs.length with
      | zero => rfl
      | succ n => exact quarter_square_succ n
    omega

theorem Mean.avg_add_of_large {m : Mean} {b : Nat} (hcount : 2 * b ≤ m.count) (havg : m.avg ≤ b)
    (hx : x ≤ b) : (m.add x).avg = m.avg := by
  rw [Mean.avg_add, roundHalfUp_eq_iff]
  have h1 : m.avg * (m.count + 1) = m.avg * m.count + m.avg := by ring
  have h2 : (m.avg + 1) * (m.count + 1) = m.avg * m.count + m.avg + m.count + 1 := by ring
  omega

/-- **The mean freezes**: once there are `2 b` values, it stays, whatever follows. -/
theorem Mean.avg_foldl_of_large {m : Mean} {b : Nat} (hcount : 2 * b ≤ m.count) (havg : m.avg ≤ b)
    (hxs : ∀ x ∈ xs, x ≤ b) : (xs.foldl Mean.add m).avg = m.avg := by
  induction xs generalizing m with
  | nil => rfl
  | cons x xs ih =>
    have hstep := Mean.avg_add_of_large hcount havg (hxs x List.mem_cons_self)
    rw [List.foldl_cons, ih (Nat.le_succ_of_le hcount) (hstep ▸ havg)
      fun y hy => hxs y (List.mem_cons_of_mem x hy), hstep]

end QuizBackend.Lib
