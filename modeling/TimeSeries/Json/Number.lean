import TimeSeries.Decimal

/-!
Numbers of JSON text: an optional minus sign, digits without a leading zero, perhaps a fraction and
perhaps an exponent. A number that no double-precision float is near enough to is told apart; the
bound is the one that a reader meets who keeps the first digits that fit 64 bits and scales them by
a power of ten.
-/
namespace TimeSeries.Json

structure Numeral where
  negative : Bool
  whole : List Char
  fraction : List Char
  /-- Whether the exponent is negative, and its digits; none without an exponent. -/
  exponent : Option (Bool × List Char)

namespace Numeral

/-- A run of digits, at least one, and what follows. -/
def digits? (cs : List Char) : Option (List Char × List Char) :=
  match cs.takeWhile Char.isDigit with
  | [] => none
  | ds => some (ds, cs.dropWhile Char.isDigit)

/-- Digits that do not start with a superfluous zero. -/
def whole? (cs : List Char) : Option (List Char × List Char) :=
  match digits? cs with
  | some ('0' :: _ :: _, _) => none
  | found => found

def fraction? : List Char → Option (List Char × List Char)
  | '.' :: cs => digits? cs
  | cs => some ([], cs)

def exponentDigits? : List Char → Option ((Bool × List Char) × List Char)
  | '-' :: cs => (digits? cs).map fun (ds, r) => ((true, ds), r)
  | '+' :: cs => (digits? cs).map fun (ds, r) => ((false, ds), r)
  | cs => (digits? cs).map fun (ds, r) => ((false, ds), r)

def exponent? : List Char → Option (Option (Bool × List Char) × List Char)
  | 'e' :: cs | 'E' :: cs => (exponentDigits? cs).map fun (e, r) => (some e, r)
  | cs => some (none, cs)

def unsigned? (negative : Bool) (cs : List Char) : Option (Numeral × List Char) := do
  let (whole, cs) ← whole? cs
  let (fraction, cs) ← fraction? cs
  let (exponent, cs) ← exponent? cs
  return (⟨negative, whole, fraction, exponent⟩, cs)

/-- A number at the start of a text, and what follows it. -/
def scan : List Char → Option (Numeral × List Char)
  | '-' :: cs => unsigned? true cs
  | cs => unsigned? false cs

/-- Digits kept while they fit 64 bits, and how many were left out after that. -/
def significand (digits : List Char) (start : Nat) : Nat × Nat :=
  digits.foldl (fun (kept, dropped) c =>
    let longer := kept * 10 + (c.toNat - '0'.toNat)
    if dropped = 0 ∧ longer < 0x10000000000000000 then (longer, 0)
    else (kept, dropped + 1)) (start, 0)

/-- The number is too large for a double-precision float. -/
def isHuge (x : Numeral) : Bool :=
  let (whole, droppedWhole) := significand x.whole 0
  let (kept, droppedFraction) := significand x.fraction whole
  let power : Int := droppedWhole - (x.fraction.length - droppedFraction : Nat)
  let exponent : Int := match x.exponent with
    | none => 0
    | some (negative, ds) =>
      let n : Int := min (Nat.ofDigitChars 10 ds 0) 0x80000000
      if negative then -n else n
  let scale := power + exponent
  kept ≠ 0 ∧ 0 ≤ scale ∧
    (308 < scale ∨ Nat.pow 2 1024 - Nat.pow 2 970 ≤
      Double.round kept 1 * Double.round (Nat.pow 10 scale.toNat) 1)

/-- An integer has neither fraction nor exponent, and is not minus zero. -/
def integer? (x : Numeral) : Option Int :=
  let n : Int := Nat.ofDigitChars 10 x.whole 0
  if x.fraction ≠ [] ∨ x.exponent.isSome ∨ x.negative ∧ n = 0 then none
  else some (if x.negative then -n else n)

/-- The number as it was written. -/
def chars (x : Numeral) : List Char :=
  let sign := if x.negative then ['-'] else []
  let fraction := if x.fraction = [] then [] else '.' :: x.fraction
  let exponent := match x.exponent with
    | none => []
    | some (negative, ds) => 'e' :: (if negative then '-' :: ds else ds)
  sign ++ x.whole ++ fraction ++ exponent

end Numeral
end TimeSeries.Json
