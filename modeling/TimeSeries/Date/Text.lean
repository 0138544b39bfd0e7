import TimeSeries.Date
import TimeSeries.Decimal

/-!
Dates as text. The canonical form is `YYYY-MM-DD`; years outside 0 to 9999 carry a sign. Reading is
either canonical, where a text is accepted only if it is what would be written, or loose, where
numbers may be short and blanks may stand before them.
-/
namespace TimeSeries

namespace Text

/-- The characters with the Unicode property White_Space. -/
def isBlank (c : Char) : Bool :=
  let n := c.toNat
  (9 ≤ n && n ≤ 13) || n == 0x20 || n == 0x85 || n == 0xa0 || n == 0x1680 ||
    (0x2000 ≤ n && n ≤ 0x200a) || n == 0x2028 || n == 0x2029 || n == 0x202f || n == 0x205f ||
    n == 0x3000

def skipBlanks (cs : List Char) : List Char := cs.dropWhile isBlank

theorem skipBlanks_cons_of_not_blank {c : Char} (h : isBlank c = false) (cs : List Char) :
    skipBlanks (c :: cs) = c :: cs := by simp [skipBlanks, h]

end Text

namespace Date

def twoDigits (n : Nat) : List Char := [Nat.digitChar (n / 10), Nat.digitChar (n % 10)]

def fourDigits (n : Nat) : List Char := twoDigits (n / 100) ++ twoDigits (n % 100)

/-- Four digits for the years 0 to 9999, else a sign and at least four digits. -/
def yearText (year : Int) : List Char :=
  if 0 ≤ year ∧ year ≤ 9999 then fourDigits year.toNat
  else (if year < 0 then '-' else '+') :: Decimal.padded 4 year.natAbs

def chars (d : Date) : List Char :=
  yearText d.year ++ '-' :: twoDigits d.month ++ '-' :: twoDigits d.day

def text (d : Date) : String := String.ofList d.chars

/-- Exactly `YYYY-MM-DD` and a day of the calendar. -/
def ofCanonical? (s : String) : Option Date :=
  match s.toList with
  | [y₁, y₂, y₃, y₄, '-', m₁, m₂, '-', d₁, d₂] => do
    let year ← Decimal.nat? [y₁, y₂, y₃, y₄]
    let month ← Decimal.nat? [m₁, m₂]
    let day ← Decimal.nat? [d₁, d₂]
    ofYmd? year month day
  | _ => none

/-- Which blanks loose text may hold beside those before a number. -/
inductive Spacing where
  /-- Nowhere else. -/
  | tight
  /-- Also before a dash and at the end. -/
  | wide
  deriving DecidableEq

/-- The first digits of a text, at most `limit` of them, and what follows. -/
def scanNumber (limit : Nat) (cs : List Char) : Option (Nat × List Char) :=
  let digits := (cs.takeWhile Char.isDigit).take limit
  (Decimal.nat? digits).map fun n => (n, cs.drop digits.length)

/-- A year: up to four digits, or a sign and any number of digits. -/
def scanYear (cs : List Char) : Option (Int × List Char) :=
  match Text.skipBlanks cs with
  | '-' :: rest => (scanNumber rest.length rest).map fun (n, r) => (-(n : Int), r)
  | '+' :: rest => (scanNumber rest.length rest).map fun (n, r) => (Int.ofNat n, r)
  | rest => (scanNumber 4 rest).map fun (n, r) => (Int.ofNat n, r)

def Spacing.skip : Spacing → List Char → List Char
  | .tight, cs => cs
  | .wide, cs => Text.skipBlanks cs

def scanDash (spacing : Spacing) (cs : List Char) : Option (List Char) :=
  match spacing.skip cs with
  | '-' :: rest => some rest
  | _ => none

/-- The earliest and the latest year that loose text may name. -/
def firstYear : Int := -262143
def lastYear : Int := 262142

/-- A date written with short numbers or with blanks before them. -/
def ofLoose? (spacing : Spacing) (s : String) : Option Date := do
  let (year, rest) ← scanYear s.toList
  let rest ← scanDash spacing rest
  let (month, rest) ← scanNumber 2 (Text.skipBlanks rest)
  let rest ← scanDash spacing rest
  let (day, rest) ← scanNumber 2 (Text.skipBlanks rest)
  if spacing.skip rest = [] ∧ firstYear ≤ year ∧ year ≤ lastYear then ofYmd? year month day
  else none

example : (ofCanonical? "2024-02-29").map text = some "2024-02-29" := by decide
example : ofCanonical? "2024-2-29" = none ∧ ofCanonical? "2023-02-29" = none := by decide
example : (ofLoose? .tight "+12345-1- 1").map text = some "+12345-01-01" := by decide
example : (ofLoose? .wide " -5 -01 -01 ").map text = some "-0005-01-01" := by decide
example : ofLoose? .tight "2024-01-01 " = none := by decide

end Date
end TimeSeries
