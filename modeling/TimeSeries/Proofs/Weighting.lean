import Mathlib.Algebra.Order.Ring.Int
import TimeSeries.Composition.Combine
import TimeSeries.Proofs.Traversal

/-!
Exact arithmetic of a composition: the three extra digits that a weight and the total carry cancel,
so a weighted value is the exact share of the value, and a sum is the exact sum. What does not fit
is an overflow and no other failure.
-/
namespace TimeSeries

/-- An integer lies in the 64-bit range. -/
def Fits (n : Int) : Prop := -0x8000000000000000 ≤ n ∧ n < 0x8000000000000000

instance (n : Int) : Decidable (Fits n) := inferInstanceAs (Decidable (_ ∧ _))

theorem fits_toInt (v : Value) : Fits v.toInt := ⟨Int64.le_toInt v, Int64.toInt_lt v⟩

theorem exists_fitting_iff {n : Int} : (∃ v, fitting n = .ok v) ↔ Fits n := by
  constructor
  · rintro ⟨v, hv⟩
    exact fitting_eq_ok_iff.1 hv ▸ fits_toInt v
  · intro h
    cases hv : fitting n with
    | ok v => exact ⟨v, rfl⟩
    | error e =>
      have := (fitting_eq_error_iff.1 hv).2
      unfold Fits at h
      omega

theorem fitting_of_not_fits {n : Int} (h : ¬ Fits n) : fitting n = .error .overflow := by
  apply fitting_eq_error_iff.2
  refine ⟨rfl, ?_⟩
  unfold Fits at h
  omega

theorem toInt_ne_zero {v : Value} (h : v ≠ 0) : v.toInt ≠ 0 := by
  intro hv
  exact h (Int64.toInt_inj.1 hv)

namespace Composition

/-- The exact share of a value under a weight: the quotient with a remainder of at least zero. -/
def share (value weight total : Value) : Int := value.toInt * weight.toInt / total.toInt

theorem magnified_eq (weight : Value) : magnified weight = fitting (weight.toInt * 1000) := rfl

section Magnified
variable {series : List Observation} {value weight total : Value}

theorem fraction_eq_share (h0 : total ≠ 0) :
    fraction value weight total = fitting (share value weight total) := by
  rw [fraction, if_neg h0, stepped_eq_ediv _ (toInt_ne_zero h0), share]

/-- The extra digits of weight and total cancel, also where there is nothing to divide by. -/
theorem fraction_magnified {numerator denominator : Value}
    (hn : numerator.toInt = weight.toInt * 1000) (hd : denominator.toInt = total.toInt * 1000) :
    fraction value numerator denominator = fraction value weight total := by
  have hzero : denominator = 0 ↔ total = 0 := by
    rw [← Int64.toInt_inj, ← Int64.toInt_inj, hd, Int64.toInt_zero]
    omega
  by_cases h0 : total = 0
  · rw [fraction, fraction, if_pos h0, if_pos (hzero.2 h0)]
  · rw [fraction_eq_share h0, fraction_eq_share fun h => h0 (hzero.1 h), share, share, hn, hd,
      ← Int.mul_assoc, Int.mul_ediv_mul_of_pos_left _ _ (by decide)]

/-- The observation with a fraction of its value. -/
def fractionOf (weight total : Value) (o : Observation) : Except Error Observation :=
  (fraction o.value weight total).map fun v => ⟨o.date, v⟩

theorem fractionOf_eq_ok_iff {o p : Observation} : fractionOf weight total o = .ok p ↔
    p.date = o.date ∧ fraction o.value weight total = .ok p.value := by
  obtain ⟨date, v⟩ := p
  rw [fractionOf, map_eq_ok_iff]
  grind

theorem fractionOf_eq_error_iff {o : Observation} {e : Error} :
    fractionOf weight total o = .error e ↔ fraction o.value weight total = .error e := by
  rw [fractionOf]
  cases fraction o.value weight total <;> simp [Except.map]

theorem exists_fractionOf_iff {o : Observation} :
    (∃ p, fractionOf weight total o = .ok p) ↔ ∃ v, fraction o.value weight total = .ok v := by
  rw [fractionOf]
  cases fraction o.value weight total <;> simp [Except.map]

theorem weigh_eq_mapM (hw : Fits (weight.toInt * 1000)) (ht : Fits (total.toInt * 1000)) :
    weigh series weight total = series.mapM (fractionOf weight total) := by
  obtain ⟨numerator, hn⟩ := exists_fitting_iff.2 hw
  obtain ⟨denominator, hd⟩ := exists_fitting_iff.2 ht
  rw [weigh, magnified_eq, magnified_eq, hn, hd, ok_bind, ok_bind]
  congr 1
  funext o
  rw [fraction_magnified (fitting_eq_ok_iff.1 hn) (fitting_eq_ok_iff.1 hd), fractionOf]
  cases fraction o.value weight total <;> rfl

theorem weigh_of_not_fits (h : ¬ (Fits (weight.toInt * 1000) ∧ Fits (total.toInt * 1000))) :
    weigh series weight total = .error .overflow := by
  rw [weigh, magnified_eq, magnified_eq]
  by_cases hw : Fits (weight.toInt * 1000)
  · obtain ⟨numerator, hn⟩ := exists_fitting_iff.2 hw
    rw [hn, ok_bind, fitting_of_not_fits fun ht => h ⟨hw, ht⟩, error_bind]
  · rw [fitting_of_not_fits hw, error_bind]

end Magnified

/-- The second observation is the first one with its share of the value. -/
def IsShareOf (weight total : Value) (o p : Observation) : Prop :=
  p.date = o.date ∧ p.value.toInt = share o.value weight total

section Weigh
variable {series result : List Observation} {weight total : Value}
  (ht : Fits (total.toInt * 1000)) (h0 : total ≠ 0)
include ht h0

theorem weigh_eq_ok_iff : weigh series weight total = .ok result ↔
    Fits (weight.toInt * 1000) ∧ List.Forall₂ (IsShareOf weight total) series result := by
  by_cases hw : Fits (weight.toInt * 1000)
  · simp only [weigh_eq_mapM hw ht, mapM_eq_ok_iff, fractionOf_eq_ok_iff, fraction_eq_share h0,
      fitting_eq_ok_iff, hw, true_and]
    rfl
  · rw [weigh_of_not_fits fun hfits => hw hfits.1]
    simp [hw]

/-- Weighting succeeds exactly if the magnified weight and every share fit. -/
theorem exists_weigh_iff : (∃ r, weigh series weight total = .ok r) ↔
    Fits (weight.toInt * 1000) ∧ ∀ o ∈ series, Fits (share o.value weight total) := by
  have hone (o : Observation) :
      (∃ p, IsShareOf weight total o p) ↔ Fits (share o.value weight total) := by
    rw [← exists_fitting_iff]
    constructor
    · rintro ⟨p, -, hp⟩
      exact ⟨p.value, fitting_eq_ok_iff.2 hp⟩
    · rintro ⟨v, hv⟩
      exact ⟨⟨o.date, v⟩, rfl, fitting_eq_ok_iff.1 hv⟩
  simp only [weigh_eq_ok_iff ht h0, exists_and_left, exists_forall₂_iff, hone]

/-- What does not fit is the only failure of weighting. -/
theorem eq_overflow_of_weigh {e : Error} (h : weigh series weight total = .error e) :
    e = .overflow := by
  by_cases hw : Fits (weight.toInt * 1000)
  · rw [weigh_eq_mapM hw ht, mapM_eq_error_iff] at h
    obtain ⟨_, o, _, -, -, ho⟩ := h
    rw [fractionOf_eq_error_iff, fraction_eq_share h0] at ho
    exact (fitting_eq_error_iff.1 ho).1
  · rw [weigh_of_not_fits fun hfits => hw hfits.1] at h
    cases h
    rfl

end Weigh

/-- Every sum of a first part of the list fits. -/
def SumsFit (l : List Int) : Prop := ∀ n, Fits (l.take n).sum

/-- A running total stays exact for as long as it fits. -/
theorem foldlM_fitting (values : List Value) (start : Value) :
    (values.foldlM (fun total v => fitting (total.toInt + v.toInt)) start =
        .error .overflow ∧ ∃ n, ¬ Fits (start.toInt + ((values.map (·.toInt)).take n).sum)) ∨
      ∃ v, values.foldlM (fun total v => fitting (total.toInt + v.toInt)) start = .ok v ∧
        v.toInt = start.toInt + (values.map (·.toInt)).sum ∧
        ∀ n, Fits (start.toInt + ((values.map (·.toInt)).take n).sum) := by
  induction values generalizing start with
  | nil =>
    refine .inr ⟨start, rfl, by simp, ?_⟩
    intro n
    simpa using fits_toInt start
  | cons a values ih =>
    rw [List.foldlM_cons]
    by_cases hfit : Fits (start.toInt + a.toInt)
    · obtain ⟨next, hnext⟩ := exists_fitting_iff.2 hfit
      have hval := fitting_eq_ok_iff.1 hnext
      rw [hnext, ok_bind]
      have hshift (n : Nat) : next.toInt + ((values.map (·.toInt)).take n).sum =
          start.toInt + (((a :: values).map (·.toInt)).take (n + 1)).sum := by
        rw [List.map_cons, List.take_succ_cons, List.sum_cons, hval, Int.add_assoc]
      rcases ih next with ⟨he, n, hn⟩ | ⟨v, hv, hsum, hn⟩
      · exact .inl ⟨he, n + 1, hshift n ▸ hn⟩
      · refine .inr ⟨v, hv, ?_, ?_⟩
        · rw [hsum, hval, List.map_cons, List.sum_cons, Int.add_assoc]
        · intro n
          cases n with
          | zero => simpa using fits_toInt start
          | succ n => exact hshift n ▸ hn n
    · rw [fitting_of_not_fits hfit, error_bind]
      exact .inl ⟨rfl, 1, by simpa using hfit⟩

/-- A sum is exact, and there is one exactly if no running total leaves the range. -/
theorem sum_eq_ok_iff {values : List Value} {v : Value} : sum values = .ok v ↔
    SumsFit (values.map (·.toInt)) ∧ v.toInt = (values.map (·.toInt)).sum := by
  rw [sum]
  rcases foldlM_fitting values 0 with ⟨he, n, hn⟩ | ⟨w, hw, hsum, hn⟩
  · rw [he]
    simp only [Int64.toInt_zero, Int.zero_add] at hn
    simp only [reduceCtorEq, false_iff, not_and]
    intro h
    exact absurd (h n) hn
  · rw [hw]
    simp only [Int64.toInt_zero, Int.zero_add] at hn hsum
    rw [Except.ok.injEq, ← hsum, eq_comm, Int64.toInt_inj]
    exact (and_iff_right hn).symm

theorem sum_eq_error_iff {values : List Value} {e : Error} : sum values = .error e ↔
    e = .overflow ∧ ¬ SumsFit (values.map (·.toInt)) := by
  rw [sum]
  rcases foldlM_fitting values 0 with ⟨he, n, hn⟩ | ⟨w, hw, -, hn⟩
  · rw [he]
    simp only [Int64.toInt_zero, Int.zero_add] at hn
    have hnot : ¬ SumsFit (values.map (·.toInt)) := fun h => hn (h n)
    simp [hnot, eq_comm]
  · rw [hw]
    simp only [Int64.toInt_zero, Int.zero_add] at hn
    simp only [reduceCtorEq, false_iff, not_and]
    intro _ h
    exact h hn

end Composition
end TimeSeries
