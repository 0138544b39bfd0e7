import TimeSeries.Value

/-!
Decimal text of integers. Written numbers have no leading zeros and a minus sign only; read ones
may have either sign and any number of leading zeros. What is written reads back. Numbers with too
many digits are rounded as double-precision floating point does it: to 53 significant bits, a tie
going to the even neighbour. They are whole; whoever needs smaller ones counts in smaller units.
-/
namespace TimeSeries

namespace Decimal

def ofNat (n : Nat) : List Char := Nat.toDigits 10 n

def ofInt : Int → List Char
  | .ofNat n => ofNat n
  | .negSucc n => '-' :: ofNat (n + 1)

/-- At least `width` digits, filled with zeros on the left. -/
def padded (width n : Nat) : List Char := (ofNat n).leftpad width '0'

/-- One or more digits. -/
def nat? (cs : List Char) : Option Nat :=
  if cs ≠ [] ∧ cs.all Char.isDigit then some (Nat.ofDigitChars 10 cs 0) else none

/-- An optional sign and one or more digits. -/
def int? : List Char → Option Int
  | '-' :: cs => (nat? cs).map fun n => -(n : Int)
  | '+' :: cs => (nat? cs).map Int.ofNat
  | cs => (nat? cs).map Int.ofNat

theorem ofNat_ne_nil (n : Nat) : ofNat n ≠ [] := Nat.toDigits_ne_nil

theorem isDigit_of_mem_ofNat {n : Nat} {c : Char} (h : c ∈ ofNat n) : c.isDigit = true :=
  Nat.isDigit_of_mem_toDigits (by decide) (by decide) h

@[simp] theorem nat?_ofNat (n : Nat) : nat? (ofNat n) = some n := by
  rw [nat?, if_pos]
  · exact congrArg some (Nat.ofDigitChars_toDigits (by decide) (by decide))
  · exact ⟨ofNat_ne_nil n, List.all_eq_true.2 fun _ h => isDigit_of_mem_ofNat h⟩

theorem int?_of_isDigit {c : Char} (h : c.isDigit = true) (cs : List Char) :
    int? (c :: cs) = (nat? (c :: cs)).map Int.ofNat := by
  unfold int?
  split
  · next h' => cases h'; exact absurd h (by decide)
  · next h' => cases h'; exact absurd h (by decide)
  · rfl

@[simp] theorem int?_ofInt (n : Int) : int? (ofInt n) = some n := by
  cases n with
  | ofNat n =>
    obtain ⟨c, cs, h⟩ := List.exists_cons_of_ne_nil (ofNat_ne_nil n)
    have hc : c.isDigit = true := isDigit_of_mem_ofNat (h ▸ List.mem_cons_self)
    rw [ofInt, h, int?_of_isDigit hc, ← h, nat?_ofNat]
    rfl
  | negSucc n => simp [ofInt, int?, Int.negSucc_eq]

/-- The value that a text denotes, when it is decimal and fits. -/
def value? (s : String) : Option Value := (int? s.toList).bind Value.ofInt?

def text (n : Int) : String := String.ofList (ofInt n)

def ofValue (v : Value) : String := text v.toInt

@[simp] theorem value?_ofValue (v : Value) : value? (ofValue v) = some v := by
  simp [value?, ofValue, text]

example : value? "+007" = some 7 := by decide
example : value? "9223372036854775808" = none := by decide
example : [" 1", "1 ", "", "-", "0x1", "1_000"].map value? = List.replicate 6 none := by decide

end Decimal

namespace Double

/-- The whole number nearest to a quotient, a tie going to the even one. -/
def roundDiv (n d : Nat) : Nat :=
  let rest := n % d * 2
  if rest > d ∨ rest = d ∧ n / d % 2 = 1 then n / d + 1 else n / d

/-- The number of 53 significant bits nearest to a quotient. -/
def round (n d : Nat) : Nat :=
  let unit := Nat.pow 2 ((n / d).log2 - 52)
  roundDiv n (d * unit) * unit

@[simp] theorem roundDiv_one (n : Nat) : roundDiv n 1 = n := by simp [roundDiv, Nat.mod_one]

/-- Numbers that have room in 53 bits are not changed. -/
theorem round_of_lt {n : Nat} (h : n < 0x20000000000000) : round n 1 = n := by
  have hlog : n.log2 - 52 = 0 := by
    rcases Nat.eq_zero_or_pos n with rfl | hn
    · simp
    · have := (Nat.log2_lt (Nat.ne_of_gt hn)).2 (show n < 2 ^ 53 from h)
      omega
  simp [round, hlog]

example : round (2 ^ 53 + 1) 1 = 2 ^ 53 := by decide
example : [5, 6, 7, 8, 9, 10].map (roundDiv · 4) = [1, 2, 2, 2, 2, 2] := by decide

end Double
end TimeSeries
