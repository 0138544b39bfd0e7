import TimeSeries.Proofs.Reachability

/-!
A composition sees of its constituents what a caller gets from them directly: for a series that is
not below itself, the identifiers on the way down make no difference.
-/
namespace TimeSeries

/-- The questions put to tables among everything that is read, in order. -/
def Traced.lookups {α : Type} (x : Traced Read α) : List (Binding × Lookup) :=
  x.reads.filterMap fun
    | .rows binding lookup => some (binding, lookup)
    | .definition _ => none

namespace Catalogue

variable {c : Catalogue} {source : Source} {method : Method} {query : Query}

/-- Constituents answered as a caller would be, with failures tagged by the constituent. -/
def direct (c : Catalogue) (source : Source) (method : Method) (query : Query) (k : SeriesId) :
    Traced Read (List Observation) :=
  (c.evaluate source k method query).mapError (.constituent k)

/-- The constituents of a series, none for one that is not composed. -/
def constituentIds (c : Catalogue) (id : SeriesId) : List SeriesId :=
  match c.definition id with
  | .ok (some (.composed comp)) => comp.constituents.map (·.id)
  | _ => []

theorem mem_constituentIds {id k : SeriesId} :
    k ∈ c.constituentIds id ↔ c.HasConstituent id k := by
  simp only [constituentIds, HasConstituent]
  split
  · next comp hd => simp [hd]
  · next hnot =>
    constructor
    · nofun
    · rintro ⟨comp, hd, -⟩
      exact absurd hd (hnot comp)

/-- What a class of series closed under constituents leaves out is not reached from within it. -/
theorem not_reaches_of_closed {ids : List SeriesId}
    (hclosed : ∀ a ∈ ids, ∀ k ∈ c.constituentIds a, k ∈ ids) {id x : SeriesId} (hid : id ∈ ids)
    (hx : x ∉ ids) : ¬ c.Reaches id x := by
  have hmem (y : SeriesId) (h : c.Reaches id y) : y ∈ ids := by
    induction h with
    | refl => exact hid
    | tail _ hedge ih => exact hclosed _ ih _ (mem_constituentIds.2 hedge)
  exact fun h => hx (hmem x h)

theorem resolveBelow_eq_direct {id k : SeriesId} (h : ¬ c.Reaches k id) :
    c.resolveBelow source method query [id] k = c.direct source method query k := by
  have hpath : c.evaluateBelow source method query [id] k =
      c.evaluateBelow source method query [] k := by
    apply evaluateBelow_congr
    intro x hx
    have hne : x ≠ id := by
      rintro rfl
      exact h hx
    simp [hne]
  rw [resolveBelow, direct, evaluate, hpath]

/-- A composition that is not below itself is read, and combined from direct answers. -/
theorem evaluate_eq_combineWith (source : Source) (method : Method) (query : Query)
    {id : SeriesId} {comp : Composition}
    (hd : c.definition id = .ok (some (.composed comp)))
    (hbelow : ∀ k ∈ comp.constituents, ¬ c.Reaches k.id id) :
    c.evaluate source id method query =
      let result := comp.combineWith (c.direct source method query)
      ⟨.definition id :: result.reads, result.outcome⟩ := by
  have hdirect : comp.combineWith (c.resolveBelow source method query [id]) =
      comp.combineWith (c.direct source method query) := by
    apply Composition.combineWith_congr
    intro k hk
    exact resolveBelow_eq_direct (hbelow k hk)
  rw [evaluate, evaluateBelow_of_composed (by simp) hd, hdirect]

/-- Evaluating a composition that is not reachable from its constituents is combining their direct
answers. The tables are asked what the direct evaluations of those constituents ask that are
resolved, one after the other; these are the first constituents in stored order. -/
theorem evaluate_composed (source : Source) (method : Method) (query : Query) {id : SeriesId}
    {comp : Composition} (hd : c.definition id = .ok (some (.composed comp)))
    (hbelow : ∀ k ∈ comp.constituents, ¬ c.Reaches k.id id) :
    let direct := c.direct source method query
    let resolved := comp.asked direct
    (c.evaluate source id method query).outcome = (comp.combineWith direct).outcome ∧
      (c.evaluate source id method query).lookups =
        resolved.flatMap (fun k => (c.evaluate source k method query).lookups) ∧
      resolved <+: comp.constituents.map (·.id) := by
  have heval := evaluate_eq_combineWith source method query hd hbelow
  have hreads : (c.evaluate source id method query).reads = .definition id ::
      (comp.asked (c.direct source method query)).flatMap fun k =>
        (c.evaluate source k method query).reads := by
    rw [heval]
    change _ :: (comp.combineWith (c.direct source method query)).reads = _
    rw [Composition.reads_combineWith]
    rfl
  refine ⟨by rw [heval], ?_, comp.asked_prefix _⟩
  rw [Traced.lookups, hreads, List.filterMap_cons, List.filterMap_flatMap]
  rfl

/-- Two levels over two shared tables, beside a series that is its own constituent. -/
def nestedPrices : Registry := .ofList
  [("rent", .primitive (.standard "rent")), ("food", .primitive (.standard "food")),
    ("housing", .composed ⟨[⟨"food", 1⟩, ⟨"rent", 3⟩], 4⟩),
    ("loop", .composed ⟨[⟨"loop", 1⟩], 1⟩),
    ("prices", .composed ⟨[⟨"food", 1⟩, ⟨"housing", 1⟩], 2⟩)]

theorem evaluate_composed_prices :
    let c := nestedPrices.catalogue
    let comp : Composition := ⟨[⟨"food", 1⟩, ⟨"housing", 1⟩], 2⟩
    let source : Source := fun _ _ => .ok [⟨⟨⟨2024, 1, 31, by decide⟩, 1200⟩, "2024-02-01"⟩]
    let query : Query := ⟨.latest, none⟩
    let direct := c.direct source .index query
    c.definition "prices" = .ok (some (.composed comp)) ∧
      (∀ k ∈ comp.constituents, ¬ c.Reaches k.id "prices") ∧
      (c.evaluate source "prices" .index query).outcome = (comp.combineWith direct).outcome ∧
      (c.evaluate source "prices" .index query).lookups =
        (comp.asked direct).flatMap (fun k => (c.evaluate source k .index query).lookups) ∧
      comp.asked direct <+: comp.constituents.map (·.id) := by
  intro c comp source query direct
  have hd : c.definition "prices" = .ok (some (.composed comp)) := by rfl
  have hbelow : ∀ k ∈ comp.constituents, ¬ c.Reaches k.id "prices" := by
    have hclosed : ∀ a ∈ ["food", "housing", "rent"],
        ∀ k ∈ c.constituentIds a, k ∈ ["food", "housing", "rent"] := by decide
    intro k hk
    apply not_reaches_of_closed hclosed
    · revert k
      decide
    · decide
  exact ⟨hd, hbelow, evaluate_composed source .index query hd hbelow⟩

end Catalogue
end TimeSeries
