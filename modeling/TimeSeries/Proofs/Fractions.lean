import Mathlib.Algebra.Order.Group.Int
import Mathlib.Tactic.Ring
import TimeSeries.Proofs.Weighting

/-!
Exact fractions. The one quotient of a product by a rule is the answer for as long as it fits,
however large the product. The digits that weights carry along change no answer.
-/
namespace TimeSeries

/-! ## Quotients by their remainders -/

/-- The quotient that leaves a remainder of at least zero. -/
def IsEuclidean (product denominator quotient : Int) : Prop :=
  0 ≤ product - quotient * denominator ∧ product - quotient * denominator < |denominator|

/-- The quotient that leaves a remainder on the side of the product. -/
def IsTruncated (product denominator quotient : Int) : Prop :=
  |product - quotient * denominator| < |denominator| ∧
    (product - quotient * denominator = 0 ∨
      (product - quotient * denominator).sign = product.sign)

section Quotients
variable {p d q q' : Int}

/-- Two quotients are the same if their remainders are closer than the denominator is large. -/
theorem eq_of_remainders_lt (h : |(p - q * d) - (p - q' * d)| < |d|) : q = q' := by
  have hfactor : (p - q * d) - (p - q' * d) = (q' - q) * d := by ring
  have hd : d ≠ 0 := by
    rintro rfl
    simp at h
  have hzero : (q' - q) * d = 0 := by
    rw [hfactor, Int.abs_eq_natAbs, Int.abs_eq_natAbs, Int.ofNat_lt] at h
    exact Int.eq_zero_of_dvd_of_natAbs_lt_natAbs (Int.dvd_mul_left _ _) h
  have hdiff := (Int.mul_eq_zero.1 hzero).resolve_right hd
  omega

theorem IsEuclidean.unique (h : IsEuclidean p d q) (h' : IsEuclidean p d q') : q = q' := by
  apply eq_of_remainders_lt (p := p) (d := d)
  obtain ⟨hlow, hhigh⟩ := h
  obtain ⟨hlow', hhigh'⟩ := h'
  rw [abs_lt]
  constructor <;> omega

theorem IsTruncated.unique (h : IsTruncated p d q) (h' : IsTruncated p d q') : q = q' := by
  apply eq_of_remainders_lt (p := p) (d := d)
  obtain ⟨hsize, hside⟩ := h
  obtain ⟨hsize', hside'⟩ := h'
  rw [abs_lt] at *
  -- Both remainders lie on the side of the product, so they cannot be further apart than either
  -- is from zero.
  rcases Int.lt_trichotomy p 0 with hp | rfl | hp
  · rw [Int.sign_eq_neg_one_of_neg hp, Int.sign_eq_neg_one_iff_neg] at hside hside'
    constructor <;> omega
  · rw [Int.sign_zero, Int.sign_eq_zero_iff_zero] at hside hside'
    constructor <;> omega
  · rw [Int.sign_eq_one_of_pos hp, Int.sign_eq_one_iff_pos] at hside hside'
    constructor <;> omega

theorem remainder_tdiv (p d : Int) : p - p.tdiv d * d = p.tmod d := by
  have := Int.tdiv_mul_add_tmod p d
  omega

theorem abs_tmod_lt (p : Int) (hd : d ≠ 0) : |p.tmod d| < |d| := by
  rw [Int.abs_eq_natAbs, Int.abs_eq_natAbs, Int.ofNat_lt, Int.natAbs_tmod]
  exact Nat.mod_lt _ (Int.natAbs_pos.2 hd)

theorem isTruncated_tdiv (p : Int) (hd : d ≠ 0) : IsTruncated p d (p.tdiv d) := by
  rw [IsTruncated, remainder_tdiv]
  refine ⟨abs_tmod_lt p hd, ?_⟩
  rw [Int.sign_tmod, ← Int.dvd_iff_tmod_eq_zero]
  by_cases hdvd : d ∣ p
  · exact .inl hdvd
  · exact .inr (if_neg hdvd)

theorem isEuclidean_stepped (p : Int) (hd : d ≠ 0) : IsEuclidean p d (stepped p d) := by
  have hrem := remainder_tdiv p d
  have hsize := abs_tmod_lt p hd
  rw [abs_lt] at hsize
  rw [IsEuclidean, stepped]
  split
  · split
    · next hneg hpos =>
      rw [abs_of_pos hpos] at *
      rw [Int.sub_mul, Int.one_mul]
      omega
    · next hneg hnot =>
      rw [abs_of_neg (by omega)] at *
      rw [Int.add_mul, Int.one_mul]
      omega
  · next hneg =>
    rw [hrem]
    omega

end Quotients

/-! ## Fractions of values -/

/-- An outcome divides by a rule for quotients: not by zero, and otherwise with the one quotient of
the rule, for as long as it is a value. -/
structure DividesBy (rule : Int → Int → Int → Prop) (product : Int) (denominator : Value)
    (outcome : Except Error Value) : Prop where
  divisionByZero_iff : outcome = .error .divisionByZero ↔ denominator = 0
  existsUnique : denominator ≠ 0 → ∃! q, rule product denominator.toInt q
  ok_iff : ∀ v, outcome = .ok v ↔ denominator ≠ 0 ∧ rule product denominator.toInt v.toInt
  overflow_iff : outcome = .error .overflow ↔
    denominator ≠ 0 ∧ ∃ q, rule product denominator.toInt q ∧ ¬ Fits q

theorem fitting_eq_overflow_iff {q : Int} : fitting q = .error .overflow ↔ ¬ Fits q := by
  constructor
  · intro h hfits
    obtain ⟨v, hv⟩ := exists_fitting_iff.2 hfits
    cases hv.symm.trans h
  · exact fitting_of_not_fits

/-- Whatever finds the quotients of a rule divides by it. -/
theorem dividesBy_fitting {rule : Int → Int → Int → Prop} {quotient : Int → Int → Int}
    (hrule : ∀ p d, d ≠ 0 → ∀ q, rule p d q ↔ q = quotient p d) (product : Int)
    (denominator : Value) : DividesBy rule product denominator
      (if denominator = 0 then .error .divisionByZero
        else fitting (quotient product denominator.toInt)) := by
  by_cases h0 : denominator = 0
  · rw [if_pos h0]
    exact ⟨by simp [h0], fun h => absurd h0 h, by simp [h0], by simp [h0]⟩
  · have hquotient := hrule product denominator.toInt (toInt_ne_zero h0)
    rw [if_neg h0]
    refine ⟨?_, fun _ => ?_, fun v => ?_, ?_⟩
    · rw [fitting_eq_error_iff]
      simp [h0]
    · exact ⟨_, (hquotient _).2 rfl, fun q hq => (hquotient q).1 hq⟩
    · rw [fitting_eq_ok_iff, hquotient, and_iff_right h0]
    · rw [fitting_eq_overflow_iff, and_iff_right h0]
      simp [hquotient]

/-- Both fractions are exact for all values: there is one quotient by their rule, formed of the whole
product, and it is the answer exactly if it fits. -/
theorem fraction_dividesBy (value numerator denominator : Value) :
    DividesBy IsEuclidean (value.toInt * numerator.toInt) denominator
        (fraction value numerator denominator) ∧
      DividesBy IsTruncated (value.toInt * numerator.toInt) denominator
        (fractionTowardZero value numerator denominator) := by
  constructor
  · apply dividesBy_fitting
    intro p d hd q
    constructor
    · intro hq
      exact hq.unique (isEuclidean_stepped p hd)
    · rintro rfl
      exact isEuclidean_stepped p hd
  · apply dividesBy_fitting
    intro p d hd q
    constructor
    · intro hq
      exact hq.unique (isTruncated_tdiv p hd)
    · rintro rfl
      exact isTruncated_tdiv p hd

/-! ## Weights -/

namespace Composition

/-- The digits that weight and total carry along change no weighted value. They must fit; apart from
that, weighting is the plain fraction of each value, and it fails as the first of them does. -/
theorem weigh_fractions (series : List Observation) (weight total : Value) :
    (¬ (Fits (weight.toInt * 1000) ∧ Fits (total.toInt * 1000)) →
        weigh series weight total = .error .overflow) ∧
      (Fits (weight.toInt * 1000) ∧ Fits (total.toInt * 1000) →
        (∀ result, weigh series weight total = .ok result ↔
          List.Forall₂ (fun o p => p.date = o.date ∧ fraction o.value weight total = .ok p.value)
            series result) ∧
        ∀ e, weigh series weight total = .error e ↔
          ∃ before o after, series = before ++ o :: after ∧
            (∀ b ∈ before, ∃ v, fraction b.value weight total = .ok v) ∧
            fraction o.value weight total = .error e) := by
  refine ⟨weigh_of_not_fits, fun ⟨hw, ht⟩ => ?_⟩
  rw [weigh_eq_mapM hw ht]
  refine ⟨fun result => ?_, fun e => ?_⟩
  · simp only [mapM_eq_ok_iff, fractionOf_eq_ok_iff]
  · simp only [mapM_eq_error_iff, fractionOf_eq_error_iff, exists_fractionOf_iff]

/-- Under a negative total a remainder is still at least zero; under no total nothing is divided. -/
theorem weigh_fractions_negative_total :
    let day : Date := ⟨2024, 1, 1, by decide⟩
    let next : Date := ⟨2024, 1, 2, by decide⟩
    let series : List Observation := [⟨next, 7⟩, ⟨day, -7⟩]
    Fits ((1 : Value).toInt * 1000) ∧ Fits ((-2 : Value).toInt * 1000) ∧
      weigh series 1 (-2) = .ok [⟨next, -3⟩, ⟨day, 4⟩] ∧
      weigh series 1 0 = .error .divisionByZero ∧
      ¬ Fits ((9223372036854776 : Value).toInt * 1000) ∧
      weigh series 9223372036854776 1 = .error .overflow := by
  intro day next series
  have hone : Fits ((1 : Value).toInt * 1000) := by decide
  have htwo : Fits ((-2 : Value).toInt * 1000) := by decide
  have hlarge : ¬ Fits ((9223372036854776 : Value).toInt * 1000) := by decide
  refine ⟨hone, htwo, ?_, ?_, hlarge, ?_⟩
  · apply (((weigh_fractions series 1 (-2)).2 ⟨hone, htwo⟩).1 _).2
    exact .cons (by decide) (.cons (by decide) .nil)
  · apply (((weigh_fractions series 1 0).2 ⟨hone, by decide⟩).2 _).2
    exact ⟨[], _, _, rfl, by simp, by decide⟩
  · exact (weigh_fractions series 9223372036854776 1).1 fun hfits => hlarge hfits.1

end Composition
end TimeSeries
