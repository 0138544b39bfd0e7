import Mathlib.Algebra.BigOperators.Group.List.Basic
import Mathlib.Data.List.Nodup
import TimeSeries.Proofs.BuiltCompositions
import TimeSeries.Proofs.PointRange

/-!
Compositions under other names. Names decide the order in which weights and shares are added up, and
nothing else: the total weight and the exact total of every date are sums, the same in any order. But
a running total may leave the range in one order and not in another, so names can decide whether
there is a composition or an answer at all.
-/
namespace TimeSeries

/-- The same constituent under another name. -/
def Constituent.rename (f : SeriesId → SeriesId) (k : Constituent) : Constituent :=
  ⟨f k.id, k.weight⟩

namespace Composition

/-- The same weights under other names. -/
def renamed (f : SeriesId → SeriesId) (weights : List (SeriesId × Value)) :
    List (SeriesId × Value) :=
  weights.map fun (id, weight) => (f id, weight)

section Shares
variable {c : Composition} {data : SeriesId → List Observation}

/-- The shares of a day in stored order, of series by identifier. -/
def dayShares (c : Composition) (data : SeriesId → List Observation) (day : Date) : List Int :=
  c.constituents.map fun k =>
    ((Align.carried? day (data k.id)).map (share · k.weight c.totalWeight)).getD 0

/-- The rows that a composition has in exact arithmetic: every series can be weighted, and each date
that is shown has the sum of its shares. -/
structure IsExact (c : Composition) (data : SeriesId → List Observation)
    (rows : List Observation) : Prop where
  divides : c.Divides
  canWeigh : ∀ k ∈ c.constituents, c.CanWeigh k (data k.id)
  ascending : rows.Pairwise (·.date < ·.date)
  mem_dates : ∀ d, (∃ o ∈ rows, o.date = d) ↔
    Align.Shown (c.constituents.map fun k => data k.id) d
  value_eq : ∀ o ∈ rows, o.value.toInt = (c.dayShares data o.date).sum

theorem sharesOn_map (c : Composition) (data : SeriesId → List Observation) (day : Date) :
    c.sharesOn (c.constituents.map fun k => data k.id) day = c.dayShares data day := by
  rw [sharesOn, List.zipWith_map_right, List.zipWith_self]
  rfl

/-- There is an answer exactly if its running totals fit, and it is then the exact one. -/
theorem combineWith_eq_ok_iff {ρ : Type} {resolve : SeriesId → Traced ρ (List Observation)}
    (hresolve : ∀ k ∈ c.constituents, (resolve k.id).outcome = .ok (data k.id))
    {rows : List Observation} : (c.combineWith resolve).outcome = .ok rows ↔
      c.IsExact data rows ∧ ∀ o ∈ rows, SumsFit (c.dayShares data o.date) := by
  constructor
  · intro h
    obtain ⟨hdivides, series, hs, -⟩ := exists_total_of_combineWith h
    have hcan (k : Constituent) (hk : k ∈ c.constituents) : c.CanWeigh k (data k.id) := by
      obtain ⟨s, -, hsup⟩ := exists_of_forall₂_left hs hk
      have hs := hsup.1
      rw [hresolve k hk] at hs
      cases hs
      exact hsup.2
    have hsupplies := forall₂_supplies hresolve hcan
    have htotal := ((combineWith_of_supplies hdivides hsupplies).2.1 rows).1 h
    refine ⟨⟨hdivides, hcan, htotal.ascending, htotal.mem_dates, ?_⟩, ?_⟩
    · intro o ho
      rw [← sharesOn_map]
      exact htotal.value_eq o ho
    · intro o ho
      rw [← sharesOn_map]
      exact htotal.fit o ho
  · rintro ⟨hexact, hfit⟩
    have hsupplies := forall₂_supplies hresolve hexact.canWeigh
    apply ((combineWith_of_supplies hexact.divides hsupplies).2.1 rows).2
    refine ⟨hexact.ascending, hexact.mem_dates, fun o ho => ?_, fun o ho => ?_⟩
    · rw [sharesOn_map]
      exact hfit o ho
    · rw [sharesOn_map]
      exact hexact.value_eq o ho

end Shares

section Names
variable {f : SeriesId → SeriesId} {weights : List (SeriesId × Value)}

theorem ids_renamed (f : SeriesId → SeriesId) (weights : List (SeriesId × Value)) :
    (renamed f weights).map (·.1) = (weights.map (·.1)).map f := by
  rw [renamed, List.map_map, List.map_map]
  rfl

theorem inOrder_renamed_perm (f : SeriesId → SeriesId) (weights : List (SeriesId × Value)) :
    (inOrder (renamed f weights)).Perm ((inOrder weights).map (·.rename f)) := by
  have hrename : (renamed f weights).map (fun (id, weight) => (⟨id, weight⟩ : Constituent)) =
      (weights.map fun (id, weight) => (⟨id, weight⟩ : Constituent)).map (·.rename f) := by
    rw [renamed, List.map_map, List.map_map]
    rfl
  have hperm := inOrder_perm (renamed f weights)
  rw [hrename] at hperm
  exact hperm.trans ((inOrder_perm weights).map _).symm

theorem weights_renamed_perm (f : SeriesId → SeriesId) (weights : List (SeriesId × Value)) :
    ((inOrder (renamed f weights)).map (·.weight.toInt)).Perm
      ((inOrder weights).map (·.weight.toInt)) := by
  have hperm := (inOrder_renamed_perm f weights).map (·.weight.toInt)
  rwa [List.map_map] at hperm

/-- Whether weights are taken under other names is a matter of the running totals in the order of
these names. -/
theorem exists_ofWeights_renamed_iff (hne : weights ≠ []) (hnodup : (weights.map (·.1)).Nodup)
    (hf : ∀ a ∈ weights.map (·.1), ∀ b ∈ weights.map (·.1), f a = f b → a = b) :
    (∃ c, ofWeights (renamed f weights) = .ok c) ↔
      SumsFit ((inOrder (renamed f weights)).map (·.weight.toInt)) := by
  have hids : ((renamed f weights).map (·.1)).Nodup := by
    rw [ids_renamed]
    exact hnodup.map_on hf
  have hrenamed : renamed f weights ≠ [] := by
    rw [renamed, ne_eq, List.map_eq_nil_iff]
    exact hne
  rw [exists_ofWeights_iff, and_iff_right hrenamed, and_iff_right hids]

section Built
variable {c c' : Composition} (hc : ofWeights weights = .ok c)
  (hc' : ofWeights (renamed f weights) = .ok c')
include hc hc'

theorem constituents_renamed_perm :
    c'.constituents.Perm (c.constituents.map (·.rename f)) := by
  rw [(ofWeights_eq_ok_iff.1 hc).2.2.1, (ofWeights_eq_ok_iff.1 hc').2.2.1]
  exact inOrder_renamed_perm f weights

theorem totalWeight_renamed : c'.totalWeight = c.totalWeight := by
  apply Int64.toInt_inj.1
  obtain ⟨-, -, -, -, htotal⟩ := ofWeights_eq_ok_iff.1 hc
  obtain ⟨-, -, -, -, htotal'⟩ := ofWeights_eq_ok_iff.1 hc'
  rw [htotal, htotal', (weights_renamed_perm f weights).sum_eq]

variable {data data' : SeriesId → List Observation}
  (hdata : ∀ k ∈ c.constituents, data' (f k.id) = data k.id)
include hdata

theorem series_renamed_perm :
    (c'.constituents.map fun k => data' k.id).Perm (c.constituents.map fun k => data k.id) := by
  have hperm := (constituents_renamed_perm hc hc').map fun k => data' k.id
  rw [List.map_map] at hperm
  exact hperm.trans (.of_eq (List.map_congr_left hdata))

/-- The same shares are added up, in another order. -/
theorem dayShares_renamed_perm (day : Date) :
    (c'.dayShares data' day).Perm (c.dayShares data day) := by
  have hperm := (constituents_renamed_perm hc hc').map fun k =>
    ((Align.carried? day (data' k.id)).map (share · k.weight c'.totalWeight)).getD 0
  rw [List.map_map, totalWeight_renamed hc hc'] at hperm
  rw [dayShares, dayShares, totalWeight_renamed hc hc']
  refine hperm.trans (.of_eq (List.map_congr_left fun k hk => ?_))
  show ((Align.carried? day (data' (f k.id))).map (share · k.weight c.totalWeight)).getD 0 = _
  rw [hdata k hk]

/-- In exact arithmetic names do not matter. -/
theorem isExact_renamed_iff {rows : List Observation} :
    c'.IsExact data' rows ↔ c.IsExact data rows := by
  have htotal := totalWeight_renamed hc hc'
  have hperm := constituents_renamed_perm hc hc'
  have hdivides : c'.Divides ↔ c.Divides := by rw [Divides, Divides, htotal]
  have hcan : (∀ k ∈ c'.constituents, c'.CanWeigh k (data' k.id)) ↔
      ∀ k ∈ c.constituents, c.CanWeigh k (data k.id) := by
    simp only [hperm.mem_iff, List.forall_mem_map]
    refine forall₂_congr fun k hk => ?_
    show c'.CanWeigh (k.rename f) (data' (f k.id)) ↔ _
    rw [hdata k hk, CanWeigh, CanWeigh, htotal]
    rfl
  have hshown (d : Date) : Align.Shown (c'.constituents.map fun k => data' k.id) d ↔
      Align.Shown (c.constituents.map fun k => data k.id) d :=
    Align.shown_perm (series_renamed_perm hc hc' hdata) d
  have hsum (day : Date) : (c'.dayShares data' day).sum = (c.dayShares data day).sum :=
    (dayShares_renamed_perm hc hc' hdata day).sum_eq
  constructor
  · rintro ⟨h₁, h₂, hasc, hdates, hvalues⟩
    simp only [hshown, hsum] at hdates hvalues
    exact ⟨hdivides.1 h₁, hcan.1 h₂, hasc, hdates, hvalues⟩
  · rintro ⟨h₁, h₂, hasc, hdates, hvalues⟩
    simp only [← hshown, ← hsum] at hdates hvalues
    exact ⟨hdivides.2 h₁, hcan.2 h₂, hasc, hdates, hvalues⟩

end Built

/-- What other names can change: weights are taken under them exactly if the running totals fit in
their order. The total weight is then the same, there is an answer exactly if the running totals of
every date fit in the new order, and it is the same answer. -/
theorem combineWith_renamed (hne : weights ≠ []) (hnodup : (weights.map (·.1)).Nodup)
    (hf : ∀ a ∈ weights.map (·.1), ∀ b ∈ weights.map (·.1), f a = f b → a = b) :
    ((∃ c', ofWeights (renamed f weights) = .ok c') ↔
        SumsFit ((inOrder (renamed f weights)).map (·.weight.toInt))) ∧
      ∀ c c', ofWeights weights = .ok c → ofWeights (renamed f weights) = .ok c' →
        c'.totalWeight = c.totalWeight ∧
        ∀ (ρ : Type) (resolve resolve' : SeriesId → Traced ρ (List Observation))
          (data data' : SeriesId → List Observation),
          (∀ id ∈ weights.map (·.1), (resolve id).outcome = .ok (data id) ∧
            (resolve' (f id)).outcome = .ok (data' (f id)) ∧ data' (f id) = data id) →
          ∀ rows, (c.combineWith resolve).outcome = .ok rows →
            ((c'.combineWith resolve').outcome = .ok rows ↔
              ∀ o ∈ rows, SumsFit (c'.dayShares data' o.date)) ∧
            ∀ rows', (c'.combineWith resolve').outcome = .ok rows' → rows' = rows := by
  refine ⟨exists_ofWeights_renamed_iff hne hnodup hf, fun c c' hc hc' => ?_⟩
  refine ⟨totalWeight_renamed hc hc', fun ρ resolve resolve' data data' hresolved rows hrows => ?_⟩
  have hnamed (k : Constituent) (hk : k ∈ c.constituents) : k.id ∈ weights.map (·.1) := by
    rw [(ofWeights_eq_ok_iff.1 hc).2.2.1] at hk
    exact (ids_inOrder_perm weights).mem_iff.1 (List.mem_map_of_mem hk)
  have hdata (k : Constituent) (hk : k ∈ c.constituents) : data' (f k.id) = data k.id :=
    (hresolved k.id (hnamed k hk)).2.2
  have hresolve (k : Constituent) (hk : k ∈ c.constituents) :
      (resolve k.id).outcome = .ok (data k.id) := (hresolved k.id (hnamed k hk)).1
  have hresolve' (k' : Constituent) (hk' : k' ∈ c'.constituents) :
      (resolve' k'.id).outcome = .ok (data' k'.id) := by
    obtain ⟨k, hk, rfl⟩ := List.mem_map.1 ((constituents_renamed_perm hc hc').mem_iff.1 hk')
    exact (hresolved k.id (hnamed k hk)).2.1
  have hexact : c'.IsExact data' rows :=
    (isExact_renamed_iff hc hc' hdata).2 ((combineWith_eq_ok_iff hresolve).1 hrows).1
  have hiff : (c'.combineWith resolve').outcome = .ok rows ↔
      ∀ o ∈ rows, SumsFit (c'.dayShares data' o.date) := by
    rw [combineWith_eq_ok_iff hresolve', and_iff_right hexact]
  refine ⟨hiff, fun rows' hrows' => ?_⟩
  -- Both list the same dates, so what fits for the one fits for the other.
  obtain ⟨hexact', hfit'⟩ := (combineWith_eq_ok_iff hresolve').1 hrows'
  have hsame : (c'.combineWith resolve').outcome = .ok rows := by
    rw [hiff]
    intro o ho
    obtain ⟨o', ho', hdate⟩ :=
      (hexact'.mem_dates o.date).2 ((hexact.mem_dates o.date).1 ⟨o, ho, rfl⟩)
    exact hdate ▸ hfit' o' ho'
  rw [hsame] at hrows'
  exact (Except.ok.inj hrows').symm

end Names

/-- The two names exchanged. -/
def exchange (a b id : SeriesId) : SeriesId := if id = a then b else if id = b then a else id

/-- The greatest value, less one and plus one again, is the answer under names that keep this order.
With the last two names exchanged the running total leaves the range, and there is no answer. -/
theorem combineWith_renamed_exchange :
    let greatest : Value := 9223372036854775807
    let day : Date := ⟨2024, 1, 1, by decide⟩
    let weights : List (SeriesId × Value) := [("a", 1), ("b", -1), ("c", 1)]
    let c : Composition := ⟨[⟨"a", 1⟩, ⟨"b", -1⟩, ⟨"c", 1⟩], 1⟩
    let c' : Composition := ⟨[⟨"a", 1⟩, ⟨"b", 1⟩, ⟨"c", -1⟩], 1⟩
    let data : SeriesId → List Observation := fun id =>
      if id = "a" then [⟨day, greatest⟩] else [⟨day, 1⟩]
    let resolve : SeriesId → Traced SeriesId (List Observation) := fun id => .read id (.ok (data id))
    (weights.map (·.1)).Nodup ∧ ofWeights weights = .ok c ∧
      ofWeights (renamed (exchange "b" "c") weights) = .ok c' ∧
      (c.combineWith resolve).outcome = .ok [⟨day, greatest⟩] ∧
      (c'.combineWith resolve).outcome ≠ .ok [⟨day, greatest⟩] := by
  intro greatest day weights c c' data resolve
  have hnodup : (weights.map (·.1)).Nodup := by decide
  have hc : ofWeights weights = .ok c := by decide +kernel
  have hc' : ofWeights (renamed (exchange "b" "c") weights) = .ok c' := by decide +kernel
  have hrows : (c.combineWith resolve).outcome = .ok [⟨day, greatest⟩] := by decide +kernel
  have hall := combineWith_renamed (by simp [weights]) hnodup (f := exchange "b" "c") (by decide)
  have hiff := ((hall.2 c c' hc hc').2 SeriesId resolve resolve data data (by decide) _ hrows).1
  refine ⟨hnodup, hc, hc', hrows, fun hok => ?_⟩
  have hfit := hiff.1 hok ⟨day, greatest⟩ (by simp) 2
  revert hfit
  decide +kernel

/-- The same numbers as weights: one order of the names has a total, the other one has none. -/
theorem ofWeights_refused_under_other_names :
    let weights : List (SeriesId × Value) := [("a", 9223372036854775807), ("b", -1), ("c", 1)]
    (∀ x y, exchange "b" "c" x = exchange "b" "c" y → x = y) ∧
      ofWeights weights = .ok ⟨[⟨"a", 9223372036854775807⟩, ⟨"b", -1⟩, ⟨"c", 1⟩],
        9223372036854775807⟩ ∧
      ofWeights (renamed (exchange "b" "c") weights) = .error .overflow := by
  intro weights
  refine ⟨fun x y h => ?_, by decide +kernel, by decide +kernel⟩
  unfold exchange at h
  grind

end Composition
end TimeSeries
