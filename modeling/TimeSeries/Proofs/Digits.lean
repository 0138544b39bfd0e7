import Mathlib.Algebra.Group.Nat.Defs
import Mathlib.Data.List.Induction
import TimeSeries.Decimal

/-!
Texts of digits. Numbers in a fixed number of digits compare as text in the order of the numbers,
and a text of so many digits stays below that power of ten.
-/
namespace TimeSeries

/-- A first part of one length decides between two lists, unless it is the same in both. -/
theorem append_lt_append_iff {α : Type} [LT α] {xs xs' ys ys' : List α}
    (h : xs.length = xs'.length) : xs ++ ys < xs' ++ ys' ↔ xs < xs' ∨ xs = xs' ∧ ys < ys' := by
  induction xs generalizing xs' with
  | nil =>
    obtain rfl : xs' = [] := by simpa using h.symm
    simp
  | cons c xs ih =>
    cases xs' with
    | nil => cases h
    | cons c' xs' =>
      rw [List.cons_append, List.cons_append, List.cons_lt_cons_iff, List.cons_lt_cons_iff,
        ih (by simpa using h)]
      grind

/-- Codes of one width for the numbers below a bound, in the order of the numbers. -/
structure FixedWidth (bound width : Nat) (code : Nat → List Char) : Prop where
  length_eq : ∀ n < bound, (code n).length = width
  lt_iff : ∀ m < bound, ∀ n < bound, code m < code n ↔ m < n

namespace FixedWidth

variable {bound width bound' width' : Nat} {code code' : Nat → List Char}

theorem inj (h : FixedWidth bound width code) {m n : Nat} (hm : m < bound) (hn : n < bound) :
    code m = code n ↔ m = n := by
  constructor
  · intro heq
    have h₁ := h.lt_iff m hm n hn
    have h₂ := h.lt_iff n hn m hm
    rw [heq] at h₁ h₂
    have hirrefl : ¬ code n < code n := List.lt_irrefl _
    simp only [hirrefl, false_iff] at h₁ h₂
    omega
  · rintro rfl
    rfl

theorem append_lt_iff (h : FixedWidth bound width code) {m n : Nat} (hm : m < bound)
    (hn : n < bound) (xs ys : List Char) :
    code m ++ xs < code n ++ ys ↔ m < n ∨ m = n ∧ xs < ys := by
  rw [append_lt_append_iff, h.lt_iff m hm n hn, h.inj hm hn]
  rw [h.length_eq m hm, h.length_eq n hn]

/-- Codes of the high and the low digits make codes of all digits. -/
theorem append (h : FixedWidth bound width code) (h' : FixedWidth bound' width' code') :
    FixedWidth (bound * bound') (width + width')
      (fun n => code (n / bound') ++ code' (n % bound')) := by
  have hdiv {n : Nat} (hn : n < bound * bound') : n / bound' < bound :=
    Nat.div_lt_of_lt_mul (by rwa [Nat.mul_comm])
  have hmod {n : Nat} (hn : n < bound * bound') : n % bound' < bound' := by
    apply Nat.mod_lt
    rcases Nat.eq_zero_or_pos bound' with rfl | hpos
    · simp at hn
    · exact hpos
  constructor
  · intro n hn
    rw [List.length_append, h.length_eq _ (hdiv hn), h'.length_eq _ (hmod hn)]
  · intro m hm n hn
    rw [h.append_lt_iff (hdiv hm) (hdiv hn), h'.lt_iff _ (hmod hm) _ (hmod hn)]
    have hm' := Nat.div_add_mod m bound'
    have hn' := Nat.div_add_mod n bound'
    constructor
    · rintro (hlt | ⟨heq, hlt⟩)
      · exact Nat.lt_of_div_lt_div hlt
      · rw [heq] at hm'
        omega
    · intro hlt
      rcases Nat.lt_or_eq_of_le (Nat.div_le_div_right (c := bound') (Nat.le_of_lt hlt)) with
        hlt' | heq
      · exact .inl hlt'
      · rw [heq] at hm'
        exact .inr ⟨heq, by omega⟩

theorem oneDigit : FixedWidth 10 1 (fun n => [Nat.digitChar n]) := by
  constructor <;> decide

end FixedWidth

namespace Decimal

theorem le_ofDigitChars (cs : List Char) (start : Nat) : start ≤ Nat.ofDigitChars 10 cs start := by
  rw [Nat.ofDigitChars_eq_ofDigitChars_zero]
  have := Nat.le_mul_of_pos_left start (Nat.pow_pos (n := cs.length) (show 0 < 10 by decide))
  omega

theorem ofDigitChars_lt {cs : List Char} (h : ∀ c ∈ cs, c.isDigit = true) :
    Nat.ofDigitChars 10 cs 0 < 10 ^ cs.length := by
  induction cs using List.reverseRecOn with
  | nil => simp
  | append_singleton cs c ih =>
    have hlow := ih fun c' hc' => h c' (List.mem_append_left _ hc')
    have hdigit : 48 ≤ c.toNat ∧ c.toNat ≤ 57 := Char.isDigit_iff_toNat.1 (h c (by simp))
    have hc : c.toNat - '0'.toNat < 10 := by
      show c.toNat - 48 < 10
      omega
    rw [Nat.ofDigitChars_append, Nat.ofDigitChars_cons, Nat.ofDigitChars_nil, List.length_append,
      Nat.pow_add]
    simp only [List.length_singleton, Nat.pow_one]
    omega

theorem nat?_lt {cs : List Char} {n : Nat} (h : nat? cs = some n) : n < 10 ^ cs.length := by
  rw [nat?] at h
  split at h
  · next hcs =>
    cases h
    exact ofDigitChars_lt (List.all_eq_true.1 hcs.2)
  · cases h

/-- Of the digits in one width no two say the same number. -/
theorem eq_of_ofDigitChars_eq {cs ds : List Char} (hlength : cs.length = ds.length)
    (hcs : ∀ c ∈ cs, c.isDigit = true) (hds : ∀ d ∈ ds, d.isDigit = true)
    (h : Nat.ofDigitChars 10 cs 0 = Nat.ofDigitChars 10 ds 0) : cs = ds := by
  induction cs using List.reverseRecOn generalizing ds with
  | nil => exact (List.length_eq_zero_iff.1 hlength.symm).symm
  | append_singleton cs c ih =>
    rcases List.eq_nil_or_concat ds with rfl | ⟨ds, d, rfl⟩
    · simp at hlength
    · rw [List.concat_eq_append] at *
      have hc : 48 ≤ c.toNat ∧ c.toNat ≤ 57 := Char.isDigit_iff_toNat.1 (hcs c (by simp))
      have hd : 48 ≤ d.toNat ∧ d.toNat ≤ 57 := Char.isDigit_iff_toNat.1 (hds d (by simp))
      have hzero : '0'.toNat = 48 := rfl
      simp only [Nat.ofDigitChars_append, Nat.ofDigitChars_cons, Nat.ofDigitChars_nil, hzero] at h
      have hlast : c = d := Char.toNat_inj.1 (by omega)
      have hfirst : cs = ds := by
        apply ih (by simpa using hlength)
        · exact fun c' hc' => hcs c' (List.mem_append_left _ hc')
        · exact fun d' hd' => hds d' (List.mem_append_left _ hd')
        · omega
      rw [hfirst, hlast]

end Decimal
end TimeSeries
