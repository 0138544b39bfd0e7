import Mathlib.Algebra.Order.Field.Rat
import Mathlib.Algebra.Order.BigOperators.Group.List
import Mathlib.Data.Rat.Cast.Order
import Mathlib.Tactic.FieldSimp
import Mathlib.Tactic.Linarith
import Mathlib.Tactic.Ring
import TimeSeries.Proofs.BuiltCompositions
import TimeSeries.Proofs.TracedCombination

/-!
Weighted means: with weights of at least zero a composition is a mean of the values carried by its
constituents, up to the remainders of the divisions. Each division loses less than one, so the sum of
`n` shares is below the mean by less than `n`, and every running total stays between the same bounds.
-/
namespace TimeSeries.Composition

/-! ## Sums of quotients -/

section Quotients
variable {total lo hi : Int} {l : List (Int × Int)}

/-- The exact weighted sum of values, each beside its weight. -/
def weightedSum (l : List (Int × Int)) : Int := (l.map fun (v, w) => v * w).sum

/-- The sum of the shares, each rounded down to an integer. -/
def quotients (total : Int) (l : List (Int × Int)) : Int := (l.map fun (v, w) => v * w / total).sum

/-- The weights of the values. -/
def weightSum (l : List (Int × Int)) : Int := (l.map (·.2)).sum

@[simp] theorem weightedSum_cons (v w : Int) (l : List (Int × Int)) :
    weightedSum ((v, w) :: l) = v * w + weightedSum l := rfl

@[simp] theorem quotients_cons (total v w : Int) (l : List (Int × Int)) :
    quotients total ((v, w) :: l) = v * w / total + quotients total l := rfl

@[simp] theorem weightSum_cons (v w : Int) (l : List (Int × Int)) :
    weightSum ((v, w) :: l) = w + weightSum l := rfl

/-- Each division leaves a remainder from zero to the divisor less one. -/
theorem quotients_remainder (ht : 0 < total) (l : List (Int × Int)) :
    0 ≤ weightedSum l - total * quotients total l ∧
      weightedSum l - total * quotients total l ≤ l.length * (total - 1) := by
  induction l with
  | nil => simp [weightedSum, quotients]
  | cons p l ih =>
    obtain ⟨v, w⟩ := p
    have hdiv := Int.mul_ediv_add_emod (v * w) total
    have hnonneg := Int.emod_nonneg (v * w) (Int.ne_of_gt ht)
    have hlt := Int.emod_lt_of_pos (v * w) ht
    rw [weightedSum_cons, quotients_cons, List.length_cons]
    push_cast
    constructor <;> linarith

/-- Under weights of at least zero, a bound on the values is one on their weighted sum. -/
theorem weightedSum_le (h : ∀ p ∈ l, 0 ≤ p.2 ∧ p.1 ≤ hi) : weightedSum l ≤ hi * weightSum l := by
  induction l with
  | nil => simp [weightedSum, weightSum]
  | cons p l ih =>
    obtain ⟨v, w⟩ := p
    obtain ⟨hw, hv⟩ := h _ List.mem_cons_self
    have hl := ih fun p hp => h p (List.mem_cons_of_mem _ hp)
    have hp : v * w ≤ hi * w := Int.mul_le_mul_of_nonneg_right hv hw
    rw [weightedSum_cons, weightSum_cons]
    linarith

theorem le_weightedSum (h : ∀ p ∈ l, 0 ≤ p.2 ∧ lo ≤ p.1) : lo * weightSum l ≤ weightedSum l := by
  induction l with
  | nil => simp [weightedSum, weightSum]
  | cons p l ih =>
    obtain ⟨v, w⟩ := p
    obtain ⟨hw, hv⟩ := h _ List.mem_cons_self
    have hl := ih fun p hp => h p (List.mem_cons_of_mem _ hp)
    have hp : lo * w ≤ v * w := Int.mul_le_mul_of_nonneg_right hv hw
    rw [weightedSum_cons, weightSum_cons]
    linarith

theorem quotients_nonneg (ht : 0 < total) (h : ∀ p ∈ l, 0 ≤ p.2 ∧ 0 ≤ p.1) :
    0 ≤ quotients total l := by
  induction l with
  | nil => exact Int.le_refl _
  | cons p l ih =>
    obtain ⟨v, w⟩ := p
    obtain ⟨hw, hv⟩ := h _ List.mem_cons_self
    have hl := ih fun p hp => h p (List.mem_cons_of_mem _ hp)
    have hp : 0 ≤ v * w / total := Int.ediv_nonneg (Int.mul_nonneg hv hw) (Int.le_of_lt ht)
    rw [quotients_cons]
    omega

theorem quotients_le (ht : 0 < total) (h : ∀ p ∈ l, 0 ≤ p.2 ∧ p.1 ≤ hi)
    (hhi : hi * weightSum l ≤ hi * total) : quotients total l ≤ hi := by
  have hrest := (quotients_remainder ht l).1
  have hsum := weightedSum_le h
  apply le_of_mul_le_mul_left _ ht
  linarith

/-- Below the least value by at most one less than there are divisions. -/
theorem le_quotients (ht : 0 < total) (h : ∀ p ∈ l, 0 ≤ p.2 ∧ lo ≤ p.1)
    (hlo : lo * total ≤ lo * weightSum l) (hne : l ≠ []) :
    lo - (l.length - 1) ≤ quotients total l := by
  have hrest := (quotients_remainder ht l).2
  have hsum := le_weightedSum h
  have hlen : (0 : Int) < l.length := by
    have := List.length_pos_iff.2 hne
    omega
  have hlt : lo - l.length < quotients total l := by
    apply Int.lt_of_mul_lt_mul_left (a := total) _ (Int.le_of_lt ht)
    linarith
  omega

theorem weightSum_take_le (h : ∀ p ∈ l, 0 ≤ p.2) (n : Nat) :
    0 ≤ weightSum (l.take n) ∧ weightSum (l.take n) ≤ weightSum l := by
  induction l generalizing n with
  | nil => simp [weightSum]
  | cons p l ih =>
    obtain ⟨v, w⟩ := p
    have hw : 0 ≤ w := h _ List.mem_cons_self
    have hl (n : Nat) := ih (fun p hp => h p (List.mem_cons_of_mem _ hp)) n
    cases n with
    | zero =>
      have := hl 0
      simp [weightSum] at *
      omega
    | succ n =>
      have := hl n
      rw [List.take_succ_cons, weightSum_cons, weightSum_cons]
      omega

/-- Every running total of the shares fits, if the weights are part of the total and the least value
leaves room for what the divisions lose. -/
theorem sumsFit_quotients (ht : 0 < total)
    (h : ∀ p ∈ l, 0 ≤ p.2 ∧ lo ≤ p.1 ∧ p.1 ≤ 0x7fffffffffffffff) (hw : weightSum l ≤ total)
    (hlo : -0x8000000000000000 + (l.length - 1) ≤ lo) :
    SumsFit (l.map fun (v, w) => v * w / total) := by
  intro n
  rw [← List.map_take]
  change Fits (quotients total (l.take n))
  obtain ⟨hnonneg, hle⟩ := weightSum_take_le (fun p hp => (h p hp).1) n
  have hmem (p : Int × Int) (hp : p ∈ l.take n) := h p (List.mem_of_mem_take hp)
  have hupper : quotients total (l.take n) ≤ 0x7fffffffffffffff := by
    apply quotients_le ht (fun p hp => ⟨(hmem p hp).1, (hmem p hp).2.2⟩)
    omega
  have hlower : -0x8000000000000000 ≤ quotients total (l.take n) := by
    rcases Int.lt_or_le lo 0 with hneg | hpos
    · by_cases hempty : l.take n = []
      · simp [hempty, quotients]
      · have hlen : (l.take n).length ≤ l.length := List.length_take_le' n l
        have hmul : lo * total ≤ lo * weightSum (l.take n) :=
          Int.mul_le_mul_of_nonpos_left (Int.le_of_lt hneg) (Int.le_trans hle hw)
        have := le_quotients ht (fun p hp => ⟨(hmem p hp).1, (hmem p hp).2.1⟩) hmul hempty
        omega
    · -- Values of at least zero lose nothing that counts: their shares are at least zero too.
      have := quotients_nonneg ht (l := l.take n)
        (fun p hp => ⟨(hmem p hp).1, Int.le_trans hpos (hmem p hp).2.1⟩)
      omega
  unfold Fits
  omega

end Quotients

/-! ## The mean of a day -/

section Mean
variable {c : Composition}

/-- Values of the constituents in stored order, each beside its weight. -/
def weighed (c : Composition) (values : List Value) : List (Int × Int) :=
  (c.constituents.zip values).map fun (k, v) => (v.toInt, k.weight.toInt)

/-- The exact weighted mean of values of the constituents. -/
def mean (c : Composition) (values : List Value) : Rat :=
  weightedSum (c.weighed values) / c.totalWeight.toInt

theorem sharesOn_eq_of_carried {series : List (List Observation)} {day : Date}
    {values : List Value} (h : series.map (Align.carried? day) = values.map some) :
    c.sharesOn series day = (c.weighed values).map fun (v, w) => v * w / c.totalWeight.toInt := by
  have hcarried : c.sharesOn series day =
      List.zipWith (fun k v? => (v?.map (share · k.weight c.totalWeight)).getD 0)
        c.constituents (series.map (Align.carried? day)) := by
    rw [List.zipWith_map_right]
    rfl
  rw [hcarried, h, List.zipWith_map_right, weighed, List.map_map, ← List.map_uncurry_zip_eq_zipWith]
  rfl

theorem weightSum_weighed {values : List Value} (h : values.length = c.constituents.length) :
    weightSum (c.weighed values) = (c.constituents.map (·.weight.toInt)).sum := by
  have hconstituents : (c.constituents.zip values).map Prod.fst = c.constituents :=
    List.map_fst_zip (Nat.le_of_eq h.symm)
  rw [weightSum, weighed, List.map_map]
  conv_rhs => rw [← hconstituents, List.map_map]
  rfl

theorem length_weighed {values : List Value} (h : values.length = c.constituents.length) :
    (c.weighed values).length = c.constituents.length := by
  rw [weighed, List.length_map, List.length_zip, h, Nat.min_self]

theorem exists_of_mem_weighed {values : List Value} {p : Int × Int} (h : p ∈ c.weighed values) :
    ∃ k ∈ c.constituents, ∃ v ∈ values, p = (v.toInt, k.weight.toInt) := by
  obtain ⟨⟨k, v⟩, hkv, rfl⟩ := List.mem_map.1 h
  obtain ⟨hk, hv⟩ := List.of_mem_zip hkv
  exact ⟨k, hk, v, hv, rfl⟩

/-- The sum of the shares is below the mean by less than there are constituents. -/
theorem mean_sub_quotients (hpos : 0 < c.totalWeight.toInt) {values : List Value}
    (hlen : (c.weighed values).length = c.constituents.length) (hne : c.constituents ≠ []) :
    0 ≤ c.mean values - quotients c.totalWeight.toInt (c.weighed values) ∧
      c.mean values - quotients c.totalWeight.toInt (c.weighed values) < c.constituents.length := by
  obtain ⟨hnonneg, hle⟩ := quotients_remainder hpos (c.weighed values)
  generalize quotients c.totalWeight.toInt (c.weighed values) = q at *
  have htotal : (0 : Rat) < c.totalWeight.toInt := by exact_mod_cast hpos
  have hrest : c.mean values - q =
      ((weightedSum (c.weighed values) - c.totalWeight.toInt * q : Int) : Rat) /
        c.totalWeight.toInt := by
    rw [mean]
    push_cast
    field_simp
  have hlt : weightedSum (c.weighed values) - c.totalWeight.toInt * q <
      c.constituents.length * c.totalWeight.toInt := by
    have hcount := List.length_pos_iff.2 hne
    rw [hlen] at hle
    have : (0 : Int) < c.constituents.length := by omega
    linarith
  rw [hrest]
  constructor
  · apply div_nonneg _ (le_of_lt htotal)
    exact_mod_cast hnonneg
  · rw [div_lt_iff₀ htotal]
    exact_mod_cast hlt

end Mean

/-! ## The composition -/

section Combine
variable {c : Composition} {m M : Int}
  (hweights : ∀ k ∈ c.constituents, 0 ≤ k.weight.toInt)
  (htotal : c.totalWeight.toInt = (c.constituents.map (·.weight.toInt)).sum)
  (hpos : 0 < c.totalWeight.toInt)
include hweights htotal

theorem weight_le_total {k : Constituent} (hk : k ∈ c.constituents) :
    k.weight.toInt ≤ c.totalWeight.toInt := by
  rw [htotal]
  apply List.single_le_sum
  · simpa using hweights
  · exact List.mem_map_of_mem hk

include hpos

/-- A part of the whole of any value fits. -/
theorem canWeigh_of_nonneg (hfits : Fits (c.totalWeight.toInt * 1000)) {k : Constituent}
    (hk : k ∈ c.constituents) (s : List Observation) : c.CanWeigh k s := by
  have hnonneg := hweights k hk
  have hle := weight_le_total hweights htotal hk
  refine ⟨?_, fun o _ => ?_⟩
  · unfold Fits at *
    omega
  · have hvalue := fits_toInt o.value
    unfold Fits at hvalue
    have hbounds : ∀ p ∈ [(o.value.toInt, k.weight.toInt)],
        0 ≤ p.2 ∧ -0x8000000000000000 ≤ p.1 ∧ p.1 ≤ 0x7fffffffffffffff := by
      simp only [List.mem_singleton, forall_eq]
      omega
    have hsum := sumsFit_quotients hpos hbounds (by simpa [weightSum] using hle) (by simp) 1
    simpa [share] using hsum

end Combine

section Day
variable {c : Composition} {data : SeriesId → List Observation} {m M : Int}

/-- The values that the constituents carry on a date that is shown. -/
theorem exists_carried {day : Date}
    (h : Align.Shown (c.constituents.map fun k => data k.id) day) :
    ∃ values : List Value,
      c.constituents.map (fun k => Align.carried? day (data k.id)) = values.map some := by
  obtain ⟨values, hvalues⟩ := Align.exists_values_iff.2 fun v? hv? => by
    obtain ⟨s, hs, rfl⟩ := List.mem_map.1 hv?
    exact (Align.shown_iff.1 h).2 s hs
  rw [List.map_map] at hvalues
  exact ⟨values, hvalues⟩

variable {day : Date} {values : List Value}
  (hcarried : c.constituents.map (fun k => Align.carried? day (data k.id)) = values.map some)
include hcarried

theorem length_of_carried : values.length = c.constituents.length := by
  have h := congrArg List.length hcarried
  rw [List.length_map, List.length_map] at h
  exact h.symm

/-- The shares of a day are those of the values it carries, under all weights of the total. -/
theorem shares_of_carried
    (htotal : c.totalWeight.toInt = (c.constituents.map (·.weight.toInt)).sum) :
    c.sharesOn (c.constituents.map fun k => data k.id) day =
        (c.weighed values).map (fun (v, w) => v * w / c.totalWeight.toInt) ∧
      (c.weighed values).length = c.constituents.length ∧
      weightSum (c.weighed values) = c.totalWeight.toInt := by
  have hlen := length_of_carried hcarried
  refine ⟨sharesOn_eq_of_carried ?_, length_weighed hlen, ?_⟩
  · rw [List.map_map]
    exact hcarried
  · rw [weightSum_weighed hlen, htotal]

/-- What is carried on a day is a value of the series. -/
theorem bounds_of_carried (hweights : ∀ k ∈ c.constituents, 0 ≤ k.weight.toInt)
    (hvalues : ∀ k ∈ c.constituents, ∀ o ∈ data k.id, m ≤ o.value.toInt ∧ o.value.toInt ≤ M)
    {p : Int × Int} (hp : p ∈ c.weighed values) :
    0 ≤ p.2 ∧ m ≤ p.1 ∧ p.1 ≤ M ∧ p.1 ≤ 0x7fffffffffffffff := by
  obtain ⟨k, hk, v, hv, rfl⟩ := exists_of_mem_weighed hp
  have hsome : some v ∈ c.constituents.map fun k => Align.carried? day (data k.id) :=
    hcarried ▸ List.mem_map_of_mem hv
  obtain ⟨k', hk', hv'⟩ := List.mem_map.1 hsome
  obtain ⟨o, ho, -, rfl⟩ := Align.mem_of_lastValue? hv'
  have hfit := Int64.toInt_lt o.value
  obtain ⟨hlo, hhi⟩ := hvalues k' hk' o ho
  exact ⟨hweights k hk, hlo, hhi, by omega⟩

end Day

/-- A weighted mean never fails on values that leave room for what the divisions lose: every total is
at most the greatest value, below the least one by at most one less than there are constituents, and
below the exact mean of the carried values by less than there are constituents. -/
theorem combineWith_weightedMean {ρ : Type} {weights : List (SeriesId × Value)} {c : Composition}
    {resolve : SeriesId → Traced ρ (List Observation)} {data : SeriesId → List Observation}
    {m M : Int} (hbuilt : ofWeights weights = .ok c)
    (hweights : ∀ k ∈ c.constituents, 0 ≤ k.weight.toInt) (hpos : 0 < c.totalWeight.toInt)
    (hfits : Fits (c.totalWeight.toInt * 1000))
    (hresolve : ∀ k ∈ c.constituents, (resolve k.id).outcome = .ok (data k.id))
    (hvalues : ∀ k ∈ c.constituents, ∀ o ∈ data k.id, m ≤ o.value.toInt ∧ o.value.toInt ≤ M)
    (hm : -0x8000000000000000 + (c.constituents.length - 1) ≤ m) :
    ∃ rows, (c.combineWith resolve).outcome = .ok rows ∧ ∀ o ∈ rows,
      m - (c.constituents.length - 1) ≤ o.value.toInt ∧ o.value.toInt ≤ M ∧
      ∃ values : List Value,
        c.constituents.map (fun k => Align.carried? o.date (data k.id)) = values.map some ∧
        0 ≤ c.mean values - o.value.toInt ∧
        c.mean values - o.value.toInt < c.constituents.length := by
  obtain ⟨hnonempty, -, hstored, -, htotal⟩ := ofWeights_eq_ok_iff.1 hbuilt
  rw [← hstored] at htotal
  have hne : c.constituents ≠ [] := by
    rw [hstored]
    exact inOrder_eq_nil_iff.ne.2 hnonempty
  have hdivides : c.Divides := by
    refine ⟨hfits, ?_⟩
    rintro hzero
    rw [hzero, Int64.toInt_zero] at hpos
    omega
  have hsupplies := forall₂_supplies hresolve fun k hk =>
    canWeigh_of_nonneg hweights htotal hpos hfits hk (data k.id)
  obtain ⟨-, hrows, herror⟩ := combineWith_of_supplies hdivides hsupplies
  cases houtcome : (c.combineWith resolve).outcome with
  | error e =>
    obtain ⟨-, day, hshown, hnot⟩ := (herror e).1 houtcome
    obtain ⟨values, hcarried⟩ := exists_carried hshown
    obtain ⟨hshares, hlen, hsum⟩ := shares_of_carried hcarried htotal
    have hbounds (p : Int × Int) (hp : p ∈ c.weighed values) :=
      bounds_of_carried hcarried hweights hvalues hp
    exfalso
    apply hnot
    rw [hshares]
    have hvalues (p : Int × Int) (hp : p ∈ c.weighed values) :
        0 ≤ p.2 ∧ m ≤ p.1 ∧ p.1 ≤ 0x7fffffffffffffff :=
      ⟨(hbounds p hp).1, (hbounds p hp).2.1, (hbounds p hp).2.2.2⟩
    exact sumsFit_quotients hpos hvalues (Int.le_of_eq hsum) (by rwa [hlen])
  | ok rows =>
    refine ⟨rows, rfl, fun o ho => ?_⟩
    have hsums := (hrows rows).1 houtcome
    obtain ⟨values, hcarried⟩ := exists_carried ((hsums.mem_dates o.date).1 ⟨o, ho, rfl⟩)
    obtain ⟨hshares, hlen, hsum⟩ := shares_of_carried hcarried htotal
    have hbounds (p : Int × Int) (hp : p ∈ c.weighed values) :=
      bounds_of_carried hcarried hweights hvalues hp
    have hvalue : o.value.toInt = quotients c.totalWeight.toInt (c.weighed values) := by
      rw [hsums.value_eq o ho, hshares]
      rfl
    have hnil : c.weighed values ≠ [] := by
      rw [← List.length_pos_iff, hlen, List.length_pos_iff]
      exact hne
    have hlower := le_quotients hpos (fun p hp => ⟨(hbounds p hp).1, (hbounds p hp).2.1⟩)
      (by rw [hsum]) hnil
    have hupper := quotients_le hpos (fun p hp => ⟨(hbounds p hp).1, (hbounds p hp).2.2.1⟩)
      (by rw [hsum])
    rw [hlen] at hlower
    rw [hvalue]
    exact ⟨hlower, hupper, values, hcarried, mean_sub_quotients hpos hlen hne⟩

/-- At the limit: two halves of the least value that is allowed lose one together, and their sum is
the least value there is. -/
theorem combineWith_weightedMean_limit :
    let day : Date := ⟨2024, 1, 1, by decide⟩
    let c : Composition := ⟨[⟨"food", 1⟩, ⟨"rent", 1⟩], 2⟩
    let data : SeriesId → List Observation := fun _ => [⟨day, -9223372036854775807⟩]
    let resolve : SeriesId → Traced SeriesId (List Observation) := fun id => .read id (.ok (data id))
    ofWeights [("rent", 1), ("food", 1)] = .ok c ∧
      (c.combineWith resolve).outcome = .ok [⟨day, -9223372036854775808⟩] ∧
      ∃ rows, (c.combineWith resolve).outcome = .ok rows ∧ ∀ o ∈ rows,
        -9223372036854775808 ≤ o.value.toInt ∧ o.value.toInt ≤ -9223372036854775807 ∧
        ∃ values : List Value,
          c.constituents.map (fun k => Align.carried? o.date (data k.id)) = values.map some ∧
          0 ≤ c.mean values - o.value.toInt ∧ c.mean values - o.value.toInt < 2 := by
  intro day c data resolve
  have hbuilt : ofWeights [("rent", 1), ("food", 1)] = .ok c := by decide +kernel
  refine ⟨hbuilt, by decide +kernel, ?_⟩
  have hresolve : ∀ k ∈ c.constituents, (resolve k.id).outcome = .ok (data k.id) := fun _ _ => rfl
  have hvalues : ∀ k ∈ c.constituents, ∀ o ∈ data k.id,
      -9223372036854775807 ≤ o.value.toInt ∧ o.value.toInt ≤ -9223372036854775807 := by
    simp [data]
  exact combineWith_weightedMean hbuilt (by decide +kernel) (by decide +kernel) (by decide +kernel)
    hresolve hvalues (by decide +kernel)

end TimeSeries.Composition
