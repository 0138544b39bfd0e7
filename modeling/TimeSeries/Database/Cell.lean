import TimeSeries.Database.Numeral
import TimeSeries.Schema

/-!
Cells of a database, the order that it compares them in, and what a column makes of a cell that is
put into it.
-/
namespace TimeSeries

open Database (Numeral)

inductive Cell where
  | null
  | integer (value : Value)
  /-- A double-precision number, in the units that numerals count in. -/
  | real (units : Int)
  | text (value : String)
  deriving DecidableEq

namespace Cell

/-- A number in units; no other cell has any. -/
def units : Cell → Int
  | integer v => v.toInt * Numeral.unit
  | real u => u
  | _ => 0

/-- Null comes first, then the numbers, then the texts by code point. -/
def le : Cell → Cell → Bool
  | null, _ => true
  | _, null => false
  | text a, text b => a ≤ b
  | text _, _ => false
  | _, text _ => true
  | integer a, integer b => a ≤ b
  | a, b => a.units ≤ b.units

/-- Neither is before the other. Null is the same as nothing, itself included. -/
def same (a b : Cell) : Bool := a != null && le a b && le b a

theorem units_le_units {a b : Value} : (integer a).units ≤ (integer b).units ↔ a ≤ b := by
  have hunit : 0 < (Numeral.unit : Int) := Int.natCast_pos.2 Numeral.unit_pos
  rw [units, units, Int64.le_iff_toInt_le]
  exact ⟨fun h => Int.le_of_mul_le_mul_right h hunit,
    fun h => Int.mul_le_mul_of_nonneg_right h (Int.le_of_lt hunit)⟩

theorem le_trans (a b c : Cell) (h₁ : le a b = true) (h₂ : le b c = true) : le a c = true := by
  cases a <;> cases b <;> cases c <;>
    simp_all only [le, decide_eq_true_eq, Bool.false_eq_true, ← units_le_units]
  all_goals first | exact Int.le_trans h₁ h₂ | exact String.le_trans h₁ h₂

theorem le_total (a b : Cell) : (le a b || le b a) = true := by
  cases a <;> cases b <;>
    simp only [le, Bool.or_eq_true, decide_eq_true_eq, Bool.true_or, Bool.or_true,
      ← units_le_units]
  all_goals first | exact Int.le_total _ _ | exact String.le_total _ _

theorem eq_of_same_text {s t : String} (h : same (text s) (text t) = true) : s = t := by
  simp only [same, le, Bool.and_eq_true, decide_eq_true_eq] at h
  exact String.le_antisymm h.1.2 h.2

/-- The cell that a number stands for. -/
def ofNumeral (x : Numeral) : Cell :=
  match x.integer? with
  | some v => integer v
  | none => real x.units

/-- A whole number that lies strictly between the ends of the 64-bit range becomes an integer. -/
def settled : Cell → Cell
  | real u =>
    let n := u / Numeral.unit
    if u % Numeral.unit = 0 ∧ n ≠ -0x8000000000000000 ∧ n ≠ 0x7fffffffffffffff then
      ((Value.ofInt? n).map integer).getD (real u)
    else real u
  | c => c

/-- An integer becomes the double-precision number nearest to it. -/
def widened : Cell → Cell
  | integer v =>
    let n := v.toInt.natAbs
    let units := Double.round n 1 * Numeral.unit
    real (if v < 0 then -units else units)
  | c => c

end Cell

/-- What the declared type of a column does to the cells put into it. -/
inductive Affinity where
  | none
  | text
  | numeric
  | real
  deriving DecidableEq

namespace Affinity

/-- Without a type a column takes cells as they are. Types other than those of integers and texts go
by the words in them, and are numeric if they have none of these. -/
def ofDeclaration : Option String → Affinity
  | Option.none => none
  | some declared =>
    match ColumnType.ofDeclaration declared with
    | .integer => numeric
    | .text => text
    | .other upper =>
      if ColumnType.mentions "BLOB" upper then none
      else if ["REAL", "FLOA", "DOUB"].any (ColumnType.mentions · upper) then real
      else numeric

/-- The number that a text consists of, in place of the text. -/
def number : Cell → Cell
  | .text s =>
    match Numeral.ofText? s with
    | some x => (Cell.ofNumeral x).settled
    | Option.none => .text s
  | c => c.settled

/-- A cell as a column keeps it, and as it compares others with its own. -/
def apply : Affinity → Cell → Cell
  | text, .integer v => .text (Decimal.ofValue v)
  | numeric, c => number c
  | real, c => (number c).widened
  | _, c => c

theorem eq_of_number_text {s t : String} (h : (number (.text s)).widened = .text t) : s = t := by
  cases hx : Numeral.ofText? s with
  | none =>
    simp only [number, hx, Cell.widened] at h
    exact Cell.text.inj h
  | some x =>
    simp only [number, hx, Cell.ofNumeral] at h
    cases hv : x.integer? with
    | some v =>
      rw [hv] at h
      cases h
    | none =>
      simp only [hv, Cell.settled] at h
      split at h
      · cases hn : Value.ofInt? (x.units / Numeral.unit) with
        | none =>
          rw [hn] at h
          cases h
        | some v =>
          rw [hn] at h
          cases h
      · cases h

/-- A text that is kept as a text is not changed. -/
theorem eq_of_apply_text {a : Affinity} {s t : String} (h : a.apply (.text s) = .text t) :
    s = t := by
  cases a with
  | none | text => simpa [apply] using h
  | numeric => exact eq_of_number_text (by rw [show number (.text s) = .text t from h]; rfl)
  | real => exact eq_of_number_text h

end Affinity
end TimeSeries
