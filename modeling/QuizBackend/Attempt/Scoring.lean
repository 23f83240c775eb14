import Mathlib.Data.Nat.Log
import Mathlib.Algebra.Group.Nat.Defs

/-!
# Scoring (`attempt-scoring.service.ts`)

The score is computed in binary64 — `((correctCount / totalAnswers) * 100).toFixed(2)` — and
stored as `numeric(5,2)`. A score is kept here in hundredths of a percent, so `'12.50'` is `1250`.

The two roundings of the floating-point expression are carried out on natural numbers. A
positive double of the magnitudes that occur is `m / 2 ^ k` with `m` of 53 bits; `toDouble p q`
is the one nearest to `p / q`, ties to the even mantissa.
-/

namespace QuizBackend.Attempt

def roundHalfEven (p q : Nat) : Nat :=
  let d := p / q
  let r := p % q
  if 2 * r < q then d
  else if q < 2 * r then d + 1
  else if d % 2 = 0 then d else d + 1

/-- The double nearest to `p / q`, for `0 < p ≤ 100 * q`, as `(m, k)` with value `m / 2 ^ k`. -/
def toDouble (p q : Nat) : Nat × Nat :=
  let k := 53 + Nat.log2 q - Nat.log2 p
  if p * 2 ^ k / q < 2 ^ 53 then (roundHalfEven (p * 2 ^ k) q, k)
  else (roundHalfEven (p * 2 ^ (k - 1)) q, k - 1)

/-- `x.toFixed(2)` in hundredths: the nearer of two, the larger on a tie. -/
def toFixed2 (x : Nat × Nat) : Nat := (200 * x.1 + 2 ^ x.2) / 2 ^ (x.2 + 1)

def calculateScorePercent (correctCount totalAnswers : Nat) : Nat :=
  if totalAnswers = 0 ∨ correctCount = 0 then 0
  else
    let ratio := toDouble correctCount totalAnswers
    toFixed2 (toDouble (ratio.1 * 100) (2 ^ ratio.2))

def calculateTimeTakenMs (startedAt now : Int) : Int := now - startedAt

/-- `calculateXpEarned`; `parseFloat` of two decimals compares with an integer as the decimal
does. -/
def calculateXpEarned (scorePercent : Nat) (passingScorePercent rewardXp : Int) : Int :=
  if passingScorePercent * 100 ≤ scorePercent then rewardXp else 0

example : calculateScorePercent 2 3 = 6667 := by decide
example : calculateScorePercent 1 8 = 1250 := by decide

end QuizBackend.Attempt
