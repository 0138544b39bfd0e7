import TimeSeries.Json.Node
import TimeSeries.Proofs.Digits

/-!
Integers in JSON text: a written integer of up to 64 bits is read as itself, if what follows cannot
be part of a number.
-/
namespace TimeSeries.Json

/-- What follows a value inside a text: nothing, or what goes on or closes around it. -/
def Ends (rest : List Char) : Prop := ∀ c ∈ rest.head?, c ∈ [',', ']', '\x7d']

theorem Ends.nil : Ends [] := by
  intro c hc
  cases hc

theorem Ends.cons {c : Char} (h : c ∈ [',', ']', '\x7d']) (rest : List Char) : Ends (c :: rest) := by
  intro c' hc'
  cases hc'
  exact h

/-- No superfluous zero is written. -/
theorem ofNat_ne_zero_cons {n : Nat} {d : Char} {ds : List Char} :
    Decimal.ofNat n ≠ '0' :: d :: ds := by
  intro h
  have hdigits : ∀ c ∈ d :: ds, c.isDigit = true := by
    intro c hc
    exact Decimal.isDigit_of_mem_ofNat (n := n) (h ▸ List.mem_cons_of_mem _ hc)
  have hvalue : n = Nat.ofDigitChars 10 (d :: ds) 0 := by
    have : Nat.ofDigitChars 10 (Decimal.ofNat n) 0 = n := Nat.ofDigitChars_ten_toDigits
    rw [h, Nat.ofDigitChars_cons] at this
    exact this.symm
  have hlt := Decimal.ofDigitChars_lt hdigits
  rw [← hvalue] at hlt
  have hlength := (Nat.length_toDigits_le_iff (by decide) (by simp)).2 hlt
  have : (Decimal.ofNat n).length = (d :: ds).length + 1 := by rw [h]; rfl
  rw [Decimal.ofNat] at this
  omega

namespace Numeral

/-- The numeral of an integer. -/
def ofInt (n : Int) : Numeral := ⟨decide (n < 0), Decimal.ofNat n.natAbs, [], none⟩

theorem digits?_ofNat (n : Nat) {rest : List Char} (h : Ends rest) :
    digits? (Decimal.ofNat n ++ rest) = some (Decimal.ofNat n, rest) := by
  have hdigits : ∀ c ∈ Decimal.ofNat n, c.isDigit = true := fun c => Decimal.isDigit_of_mem_ofNat
  have hnone : rest.takeWhile Char.isDigit = [] ∧ rest.dropWhile Char.isDigit = rest := by
    cases rest with
    | nil => exact ⟨rfl, rfl⟩
    | cons c rest =>
      have hc : c.isDigit = false := by
        have := h c rfl
        simp only [List.mem_cons, List.not_mem_nil, or_false] at this
        rcases this with rfl | rfl | rfl <;> rfl
      simp [hc]
  have htake : (Decimal.ofNat n ++ rest).takeWhile Char.isDigit = Decimal.ofNat n := by
    rw [List.takeWhile_append_of_pos hdigits, hnone.1, List.append_nil]
  have hdrop : (Decimal.ofNat n ++ rest).dropWhile Char.isDigit = rest := by
    rw [List.dropWhile_append_of_pos hdigits, hnone.2]
  rw [digits?, htake, hdrop]
  split
  · next h => exact absurd h (Decimal.ofNat_ne_nil n)
  · rfl

theorem unsigned?_ofNat (negative : Bool) (n : Nat) {rest : List Char} (h : Ends rest) :
    unsigned? negative (Decimal.ofNat n ++ rest) =
      some (⟨negative, Decimal.ofNat n, [], none⟩, rest) := by
  have hwhole : whole? (Decimal.ofNat n ++ rest) = some (Decimal.ofNat n, rest) := by
    rw [whole?, digits?_ofNat n h]
    split
    · next d ds rest heq => exact absurd (congrArg Prod.fst (Option.some.inj heq)) ofNat_ne_zero_cons
    · rfl
  have hrest : fraction? rest = some ([], rest) ∧ exponent? rest = some (none, rest) := by
    cases rest with
    | nil => exact ⟨rfl, rfl⟩
    | cons c rest =>
      have hc := h c rfl
      simp only [List.mem_cons, List.not_mem_nil, or_false] at hc
      rcases hc with rfl | rfl | rfl <;> exact ⟨rfl, rfl⟩
  rw [unsigned?, hwhole]
  simp [hrest]

theorem scan_ofInt (n : Int) {rest : List Char} (h : Ends rest) :
    scan (Decimal.ofInt n ++ rest) = some (ofInt n, rest) := by
  cases n with
  | ofNat n =>
    have hsign : decide (Int.ofNat n < 0) = false := by simp
    obtain ⟨c, cs, hcs⟩ := List.exists_cons_of_ne_nil (Decimal.ofNat_ne_nil n)
    have hc : c.isDigit = true := Decimal.isDigit_of_mem_ofNat (hcs ▸ List.mem_cons_self)
    have hscan := unsigned?_ofNat false n h
    rw [Decimal.ofInt, ofInt, hsign]
    rw [hcs] at hscan ⊢
    rw [List.cons_append] at hscan ⊢
    rw [scan]
    · rw [hscan]
      simp [hcs]
    · intro cs' heq
      cases heq
      exact absurd hc (by decide)
  | negSucc n =>
    have hsign : decide (Int.negSucc n < 0) = true := by simp [Int.negSucc_lt_zero]
    rw [Decimal.ofInt, ofInt, hsign, List.cons_append, scan, unsigned?_ofNat true (n + 1) h]
    rfl

theorem significand_of_lt {cs : List Char} {start : Nat}
    (h : Nat.ofDigitChars 10 cs start < 0x10000000000000000) :
    significand cs start = (Nat.ofDigitChars 10 cs start, 0) := by
  induction cs generalizing start with
  | nil => rfl
  | cons c cs ih =>
    rw [Nat.ofDigitChars_cons] at h ⊢
    have hkept : start * 10 + (c.toNat - '0'.toNat) < 0x10000000000000000 := by
      have := Decimal.le_ofDigitChars cs (10 * start + (c.toNat - '0'.toNat))
      omega
    have hstep : significand (c :: cs) start =
        significand cs (start * 10 + (c.toNat - '0'.toNat)) := by
      simp only [significand, List.foldl_cons, hkept, and_self, if_true]
    rw [Nat.mul_comm 10 start] at h ⊢
    rw [hstep, ih h]

theorem round_le (n : Nat) : Double.round n 1 ≤ 2 * n + 1 := by
  have hunit : Nat.pow 2 (n.log2 - 52) ≤ n + 1 := by
    show 2 ^ (n.log2 - 52) ≤ n + 1
    rcases Nat.eq_zero_or_pos n with rfl | hn
    · decide
    · have hle : 2 ^ (n.log2 - 52) ≤ 2 ^ n.log2 := Nat.pow_le_pow_right (by decide) (Nat.sub_le _ _)
      have := Nat.log2_self_le (Nat.ne_of_gt hn)
      omega
  have hdiv (d : Nat) : Double.roundDiv n d ≤ n / d + 1 := by
    rw [Double.roundDiv]
    split <;> omega
  rw [Double.round, Nat.div_one, Nat.one_mul]
  generalize Nat.pow 2 (n.log2 - 52) = unit at *
  have hmul := Nat.mul_le_mul_right unit (hdiv unit)
  have hself := Nat.div_mul_le_self n unit
  rw [Nat.add_mul, Nat.one_mul] at hmul
  omega

theorem isHuge_ofInt {n : Int} (h : n.natAbs < 0x10000000000000000) : (ofInt n).isHuge = false := by
  have hvalue : Nat.ofDigitChars 10 (Decimal.ofNat n.natAbs) 0 = n.natAbs :=
    Nat.ofDigitChars_ten_toDigits
  have hwhole : significand (ofInt n).whole 0 = (n.natAbs, 0) := by
    rw [ofInt, significand_of_lt (by rw [hvalue]; exact h), hvalue]
  have hone : Double.round (Nat.pow 10 0) 1 = 1 := Double.round_of_lt (by decide)
  have hbound : 2 * 0x10000000000000000 < Nat.pow 2 1024 - Nat.pow 2 970 := by decide +kernel
  have hround := round_le n.natAbs
  have hnot : ¬ Nat.pow 2 1024 - Nat.pow 2 970 ≤
      Double.round n.natAbs 1 * Double.round (Nat.pow 10 0) 1 := by
    rw [hone, Nat.mul_one]
    generalize Nat.pow 2 1024 - Nat.pow 2 970 = bound at *
    omega
  rw [isHuge, hwhole]
  change decide (n.natAbs ≠ 0 ∧ (0 : Int) ≤ 0 ∧ ((308 : Int) < 0 ∨
    Nat.pow 2 1024 - Nat.pow 2 970 ≤
      Double.round n.natAbs 1 * Double.round (Nat.pow 10 0) 1)) = false
  rw [decide_eq_false_iff_not]
  rintro ⟨-, -, h | h⟩
  · exact absurd h (by decide)
  · exact hnot h

theorem integer?_ofInt (n : Int) : (ofInt n).integer? = some n := by
  have hvalue : Nat.ofDigitChars 10 (Decimal.ofNat n.natAbs) 0 = n.natAbs :=
    Nat.ofDigitChars_ten_toDigits
  rw [integer?, ofInt, hvalue, if_neg]
  · simp only [decide_eq_true_eq]
    split <;> congr 1 <;> omega
  · simp only [decide_eq_true_eq]
    simp
    omega

end Numeral

theorem Node.ofNumeral_ofInt {n : Int} (h : n.natAbs < 0x10000000000000000) :
    ofNumeral (.ofInt n) = .integer n := by
  rw [ofNumeral, Numeral.isHuge_ofInt h, Numeral.integer?_ofInt]
  rfl

end TimeSeries.Json
