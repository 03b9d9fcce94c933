import AwesomeAgent.Context.Sources
import AwesomeAgent.Library.FaultySteps
import Mathlib.Algebra.GroupWithZero.Nat
import Mathlib.Data.Nat.Log

/-!
# Token budgets and estimates

The limits of a context are scaled by fractions that are doubles; the scaling here rounds
as doubles do. Texts are estimated by their size in UTF-8 and their share of structure.
-/

namespace AwesomeAgent.Context

open Modeling (Text ModelMessage)

/-- What goes wrong while a context is prepared. -/
inductive ContextError
  | value (message : String)
  | arithmetic
  | validation
  | overflow (message : String)
  deriving DecidableEq, Repr

/-! ## Scaling by doubles -/

/-- An integer rounded to 53 significant bits, halfway cases to even ones. -/
def roundDouble (n : Nat) : Nat :=
  let unit := 2 ^ (Nat.log2 n - 52)
  let quotient := n / unit
  let doubled := 2 * (n % unit)
  if unit < doubled ∨ unit = doubled ∧ quotient % 2 = 1 then (quotient + 1) * unit
  else quotient * unit

/-- Least integer that rounds beyond the doubles: `2 ^ 1024 - 2 ^ 970`. -/
def doubleOverflow : Nat := (2 ^ 54 - 1) * (2 ^ 194) ^ 5

/-- An integer as a double. -/
def toDouble (n : Nat) : Except ContextError Nat :=
  if n < doubleOverflow then .ok (roundDouble n) else .error .arithmetic

/-- The significand of the doubles for one tenth and for four fifths. -/
def tenthSignificand : Nat := 3602879701896397

/-- `floor(n * 0.10)` -/
def floorTenth (n : Nat) : Except ContextError Nat := do
  let n ← toDouble n
  pure (roundDouble (n * tenthSignificand) / 2 ^ 55)

/-- `floor(n * 0.80)` -/
def floorFourFifths (n : Nat) : Except ContextError Nat := do
  let n ← toDouble n
  pure (roundDouble (n * tenthSignificand) / 2 ^ 52)

example : (floorTenth 40009, floorTenth 40010, floorFourFifths 3231) =
    (.ok 4000, .ok 4001, .ok 2584) := by decide

/-! ## Budgets -/

/-- Tokens that are kept for the answer. -/
def outputReserveTokens : Nat := 32768

/-- How the tokens of a model are split up. -/
structure ContextBudget where
  effectiveTotal : Nat
  outputReserve : Nat
  safetyReserve : Nat
  effectiveInputLimit : Nat
  compressionThreshold : Nat
  deriving DecidableEq, Repr

/-- The budget of a context; its fields are validated to be positive. -/
def calculateContextBudget (configuredTotal modelContextLimit : Nat) :
    Except ContextError ContextBudget := do
  if configuredTotal = 0 ∨ modelContextLimit = 0 then
    .error (.value "context totals must be positive")
  else
    let effectiveTotal := min configuredTotal modelContextLimit
    let outputReserve := min outputReserveTokens effectiveTotal
    let safetyReserve ← floorTenth effectiveTotal
    if effectiveTotal ≤ outputReserve + safetyReserve then
      .error (.value "context budget must leave positive input capacity")
    else
      let effectiveInput := effectiveTotal - outputReserve - safetyReserve
      let compressionThreshold ← floorFourFifths effectiveInput
      if compressionThreshold = 0 then .error .validation
      else
        .ok ⟨effectiveTotal, outputReserve, safetyReserve, effectiveInput, compressionThreshold⟩

/-! ## Estimates -/

/-- Characters that structured texts have many of. -/
def isStructural (c : Char) : Bool := "{}[]():,;\n\t".toList.contains c

/-- The tokens of a text. -/
def estimateText (text : Text) : Nat :=
  if text = [] then 0
  else
    let encoded := (text.map Char.utf8Size).sum
    let divisor := if text.length ≤ text.countP isStructural * 5 then 2 else 3
    max 1 ((encoded + divisor - 1) / divisor)

/-- The tokens of a message, whose JSON text is given. -/
def estimateMessage (dump : ModelMessage → Text) (message : ModelMessage) : Nat :=
  estimateText (dump message) + 8

/-- The tokens of messages. -/
def estimateMessages (dump : ModelMessage → Text) (messages : List ModelMessage) : Nat :=
  (messages.map (estimateMessage dump)).sum

/-! ## Limits that have a budget -/

/-- A number below the overflow is rounded. -/
theorem toDouble_eq_ok {n : Nat} (h : n < doubleOverflow) : toDouble n = .ok (roundDouble n) :=
  if_pos h

private theorem lt_of_floorTenth {n m : Nat} (h : floorTenth n = .ok m) : n < doubleOverflow := by
  by_contra hlarge
  have hoverflow : toDouble n = .error .arithmetic := if_neg hlarge
  rw [floorTenth, hoverflow] at h
  cases h

/-- The input of a context with a budget can be scaled. -/
theorem calculateContextBudget_eq_ok {configured limit : Nat} {budget : ContextBudget}
    (h : calculateContextBudget configured limit = .ok budget) :
    budget.effectiveInputLimit < doubleOverflow := by
  unfold calculateContextBudget at h
  split at h
  · cases h
  obtain ⟨safetyReserve, hreserve, h⟩ := except_bind_ok h
  dsimp only at h
  split at h
  · cases h
  obtain ⟨threshold, -, h⟩ := except_bind_ok h
  split at h
  · cases h
  · cases h
    exact lt_of_le_of_lt ((Nat.sub_le _ _).trans (Nat.sub_le _ _)) (lt_of_floorTenth hreserve)

end AwesomeAgent.Context
