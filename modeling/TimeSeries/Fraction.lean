import TimeSeries.Error
import TimeSeries.Value

/-!
Exact fractions of 64-bit values. The product is formed without bound, divided once toward zero, and
only the quotient has to fit. Index values truncate; weights go one step on from a remainder below
zero, which makes theirs the quotient with a remainder of at least zero.
-/
namespace TimeSeries

/-- A quotient that must be a value. -/
def fitting (q : Int) : Except Error Value :=
  match Value.ofInt? q with
  | some v => .ok v
  | none => .error .overflow

@[simp] theorem fitting_eq_ok_iff {q : Int} {v : Value} : fitting q = .ok v ↔ v.toInt = q := by
  rw [← Value.ofInt?_eq_some_iff, fitting]
  cases Value.ofInt? q <;> simp

theorem fitting_eq_error_iff {q : Int} {e : Error} :
    fitting q = .error e ↔
      e = .overflow ∧ (q < -0x8000000000000000 ∨ 0x8000000000000000 ≤ q) := by
  rw [← Value.ofInt?_eq_none_iff, fitting]
  cases Value.ofInt? q <;> simp [eq_comm]

/-- The truncated quotient, one step further where it leaves a remainder below zero. -/
def stepped (product denominator : Int) : Int :=
  if product.tmod denominator < 0 then
    if 0 < denominator then product.tdiv denominator - 1 else product.tdiv denominator + 1
  else product.tdiv denominator

theorem tmod_neg_iff (p d : Int) : p.tmod d < 0 ↔ ¬ (0 ≤ p ∨ d ∣ p) := by
  rw [← Int.sign_eq_neg_one_iff_neg, Int.sign_tmod]
  split
  · next hdvd => simp [hdvd]
  · next hdvd => simp [hdvd, Int.sign_eq_neg_one_iff_neg]

/-- Division with a remainder of at least zero is one truncated division and perhaps a step. -/
theorem stepped_eq_ediv (p : Int) {d : Int} (hd : d ≠ 0) : stepped p d = p / d := by
  rw [Int.ediv_eq_tdiv, stepped]
  by_cases hneg : p.tmod d < 0
  · rw [if_neg ((tmod_neg_iff p d).1 hneg), if_pos hneg]
    rcases Int.lt_or_gt_of_ne hd with hd | hd
    · rw [Int.sign_eq_neg_one_of_neg hd, if_neg (by omega), Int.sub_neg]
    · rw [Int.sign_eq_one_of_pos hd, if_pos hd]
  · have hside := Decidable.of_not_not (mt (tmod_neg_iff p d).2 hneg)
    rw [if_pos hside, if_neg hneg, Int.sub_zero]

/-- `value * numerator / denominator`, the remainder being at least zero. -/
def fraction (value numerator denominator : Value) : Except Error Value :=
  if denominator = 0 then .error .divisionByZero
  else fitting (stepped (value.toInt * numerator.toInt) denominator.toInt)

/-- `value * numerator / denominator`, truncated toward zero. -/
def fractionTowardZero (value numerator denominator : Value) : Except Error Value :=
  if denominator = 0 then .error .divisionByZero
  else fitting ((value.toInt * numerator.toInt).tdiv denominator.toInt)

/-- Multiplies both sides of a weight, for three more digits through the division. -/
def magnifier : Value := 1000

/-- An index of the base value itself: one hundred, with three decimal digits. -/
def indexScale : Value := 100000

example : (fraction (-7) 1 2).toOption = some (-4) := by decide
example : (fractionTowardZero (-7) 1 2).toOption = some (-3) := by decide
example : (fraction 7 1 (-2)).toOption = some (-3) := by decide
example : (fraction (-7) 1 (-2)).toOption = some 4 := by decide

end TimeSeries
