import TimeSeries.Decimal

/-!
Numbers as texts of a database: an optional sign, digits with perhaps a point before, among or after
them, and perhaps an exponent. Plain digits that fit are an integer; every other number is a
double-precision one, and is counted in the smallest unit that there is of those.
-/
namespace TimeSeries.Database

structure Numeral where
  negative : Bool
  whole : List Char
  /-- The digits after the point, none without a point. -/
  fraction : Option (List Char)
  /-- Whether the exponent is negative, and its digits; none without an exponent. -/
  exponent : Option (Bool × List Char)

namespace Numeral

def isSpace (c : Char) : Bool := (9 ≤ c.toNat && c.toNat ≤ 13) || c == ' '

/-- Whether there is a minus sign, and what follows either sign. -/
def sign : List Char → Bool × List Char
  | '-' :: cs => (true, cs)
  | '+' :: cs => (false, cs)
  | cs => (false, cs)

def fraction? : List Char → Option (List Char) × List Char
  | '.' :: cs => (some (cs.takeWhile Char.isDigit), cs.dropWhile Char.isDigit)
  | cs => (none, cs)

def exponentDigits? (cs : List Char) : Option (Option (Bool × List Char) × List Char) :=
  let (negative, cs) := sign cs
  match cs.takeWhile Char.isDigit with
  | [] => none
  | ds => some (some (negative, ds), cs.dropWhile Char.isDigit)

def exponent? : List Char → Option (Option (Bool × List Char) × List Char)
  | 'e' :: cs | 'E' :: cs => exponentDigits? cs
  | cs => some (none, cs)

/-- A number at the start of a text, and what follows it. There must be a digit before the
exponent. -/
def scan? (cs : List Char) : Option (Numeral × List Char) := do
  let (negative, cs) := sign cs
  let whole := cs.takeWhile Char.isDigit
  let (fraction, cs) := fraction? (cs.dropWhile Char.isDigit)
  guard (whole ++ fraction.getD [] ≠ [])
  let (exponent, cs) ← exponent? cs
  return (⟨negative, whole, fraction, exponent⟩, cs)

/-- The number that a text consists of, but for blanks around it. -/
def ofText? (s : String) : Option Numeral := do
  let (x, rest) ← scan? (s.toList.dropWhile isSpace)
  guard (rest.all isSpace)
  return x

def signed (x : Numeral) (n : Nat) : Int := if x.negative then -n else n

/-- The value of plain digits. -/
def integer? (x : Numeral) : Option Value :=
  if x.fraction.isSome ∨ x.exponent.isSome then none
  else Value.ofInt? (x.signed (Nat.ofDigitChars 10 x.whole 0))

/-- Digits are taken in as long as another one surely fits 64 bits; with them comes their number. -/
def significand (digits : List Char) (start : Nat) : Nat × Nat :=
  digits.foldl (fun (n, taken) c =>
    if n < (0x10000000000000000 - 10) / 10 then (n * 10 + (c.toNat - '0'.toNat), taken + 1)
    else (n, taken)) (start, 0)

/-- An exponent that has reached five digits is not followed any further. -/
def power (x : Numeral) : Int :=
  match x.exponent with
  | none => 0
  | some (negative, ds) =>
    let n : Nat := ds.foldl (fun n c =>
      if n < 10000 then n * 10 + (c.toNat - '0'.toNat) else 10000) 0
    if negative then -n else n

/-- All double-precision numbers are multiples of the smallest one, which is one divided by this. -/
def unit : Nat := Nat.pow 2 1074

theorem unit_pos : 0 < unit := by decide +kernel

/-- The nearest double-precision number, in units. From `2 ^ 1024` on all count as the same. -/
def units (x : Numeral) : Int :=
  let (whole, takenWhole) := significand x.whole 0
  let (n, takenFraction) := significand (x.fraction.getD []) whole
  let scale := x.power + (x.whole.length - takenWhole : Nat) - takenFraction
  let rounded := Double.round (n * Nat.pow 10 scale.toNat * unit) (Nat.pow 10 (-scale).toNat)
  x.signed (min rounded (Nat.pow 2 1024 * unit))

example : ["7", " +007\t", "-0", "9223372036854775807"].map
    (fun s => (ofText? s).bind integer?) = [some 7, some 7, some 0, some 9223372036854775807] := by
  decide
example : ["1.", ".5", "-3.0", "1e2", "12.50E+1", "1e-400"].map
      (fun s => (ofText? s).map fun x => x.units * 2 / (unit : Int))
    = [2, 1, -6, 200, 250, 0].map some := by
  decide +kernel
example : ["", " ", ".", "+", "- 5", "5x", "1e", "1e+", "0x10", "1_000", "--5", "inf"].all
    (fun s => (ofText? s).isNone) = true := by
  decide

end Numeral
end TimeSeries.Database
