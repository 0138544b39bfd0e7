import Mathlib.Logic.Relation
import TimeSeries.Evaluation
import TimeSeries.Proofs.TracedCombination

/-!
Which series an evaluation can reach, and the equation and the induction that evaluations are reasoned
about with. Identifiers on the way down that are out of reach do not matter.
-/
namespace TimeSeries

namespace Composition

variable {ρ σ : Type}

/-- A resolver with the same outcomes that reads what it is asked for, and nothing else. -/
def logged (resolve : SeriesId → Traced ρ (List Observation)) (id : SeriesId) :
    Traced SeriesId (List Observation) := .read id (resolve id).outcome

/-- The identifiers that combining asks for, in order. -/
def asked (c : Composition) (resolve : SeriesId → Traced ρ (List Observation)) : List SeriesId :=
  (c.combineWith (logged resolve)).reads

section Outcomes
variable {c : Composition} {resolve : SeriesId → Traced ρ (List Observation)}
  {resolve' : SeriesId → Traced σ (List Observation)}
  (houtcome : ∀ id, (resolve' id).outcome = (resolve id).outcome)
include houtcome

theorem Supplies.of_outcome {k : Constituent} {s : List Observation}
    (h : c.Supplies resolve k s) : c.Supplies resolve' k s :=
  ⟨(houtcome k.id).trans h.1, h.2⟩

theorem FailsWith.of_outcome {k : Constituent} {e : Error} (h : c.FailsWith resolve k e) :
    c.FailsWith resolve' k e := by
  cases h with
  | unresolved h => exact .unresolved ((houtcome k.id).trans h)
  | unweighted h hnot => exact .unweighted ((houtcome k.id).trans h) hnot

end Outcomes

/-- Some first constituents are asked for; which ones depends on the outcomes of the resolver. -/
theorem exists_asked (c : Composition) (resolve : SeriesId → Traced ρ (List Observation)) :
    ∃ ks, ks <+: c.constituents ∧ ∀ {σ : Type} (resolve' : SeriesId → Traced σ (List Observation)),
      (∀ id, (resolve' id).outcome = (resolve id).outcome) →
        (c.combineWith resolve').reads = ks.flatMap fun k => (resolve' k.id).reads := by
  obtain ⟨x, hx⟩ := exists_combines c resolve
  have hall (hc : c.Divides) {series : List (List Observation)}
      (hs : List.Forall₂ (c.Supplies resolve) c.constituents series) {σ : Type}
      (resolve' : SeriesId → Traced σ (List Observation))
      (h : ∀ id, (resolve' id).outcome = (resolve id).outcome) :
      (c.combineWith resolve').reads =
        c.constituents.flatMap fun k => (resolve' k.id).reads := by
    have hs' : List.Forall₂ (c.Supplies resolve') c.constituents series :=
      hs.imp fun _ _ => Supplies.of_outcome h
    exact (combineWith_of_supplies hc hs').1
  cases hx with
  | totalTooLarge hnot =>
    refine ⟨[], List.nil_prefix, fun resolve' _ => ?_⟩
    rw [combineWith_eq_of_combines (.totalTooLarge hnot)]
    rfl
  | totalZero hzero =>
    refine ⟨[], List.nil_prefix, fun resolve' _ => ?_⟩
    rw [combineWith_eq_of_combines (.totalZero hzero)]
    rfl
  | @fails before k after e hc hsplit hbefore hk =>
    refine ⟨before ++ [k], ⟨after, by rw [hsplit]; simp⟩, fun resolve' h => ?_⟩
    have hbefore' (b : Constituent) (hb : b ∈ before) : ∃ s, c.Supplies resolve' b s := by
      obtain ⟨s, hs⟩ := hbefore b hb
      exact ⟨s, hs.of_outcome h⟩
    rw [combineWith_eq_of_combines (.fails hc hsplit hbefore' (hk.of_outcome h))]
  | sumTooLarge hc hs _ _ => exact ⟨c.constituents, List.prefix_rfl, fun _ h => hall hc hs _ h⟩
  | total hc hs _ => exact ⟨c.constituents, List.prefix_rfl, fun _ h => hall hc hs _ h⟩

theorem asked_prefix (c : Composition) (resolve : SeriesId → Traced ρ (List Observation)) :
    c.asked resolve <+: c.constituents.map (·.id) := by
  obtain ⟨ks, hks, hreads⟩ := exists_asked c resolve
  have hasked : c.asked resolve = ks.map (·.id) := by
    rw [asked, hreads (logged resolve) fun _ => rfl]
    exact List.flatMap_pure_eq_map (·.id) ks
  rw [hasked]
  exact hks.map _

/-- Whatever a resolver reads, it reads on behalf of the constituents that are asked for. -/
theorem reads_combineWith (c : Composition) (resolve : SeriesId → Traced ρ (List Observation)) :
    (c.combineWith resolve).reads = (c.asked resolve).flatMap fun id => (resolve id).reads := by
  obtain ⟨ks, -, hreads⟩ := exists_asked c resolve
  rw [hreads resolve fun _ => rfl, asked, hreads (logged resolve) fun _ => rfl,
    List.flatMap_assoc]
  simp [logged, Traced.read]

end Composition

namespace Catalogue

/-- The first series is a composition and the second one of its constituents. -/
def HasConstituent (c : Catalogue) (id k : SeriesId) : Prop :=
  ∃ comp, c.definition id = .ok (some (.composed comp)) ∧ ∃ m ∈ comp.constituents, m.id = k

/-- The second series is met on some way down from the first. -/
def Reaches (c : Catalogue) : SeriesId → SeriesId → Prop := Relation.ReflTransGen c.HasConstituent

section Evaluation
variable {c : Catalogue} {source : Source} {method : Method} {query : Query}

theorem readDefinition_of_ok {id : SeriesId} {series : Series}
    (h : c.definition id = .ok (some series)) :
    c.readDefinition id = ⟨[.definition id], .ok series⟩ := by
  rw [readDefinition, h]
  rfl

theorem definition_of_readDefinition {id : SeriesId} {series : Series}
    (h : (c.readDefinition id).outcome = .ok series) : c.definition id = .ok (some series) := by
  cases hd : c.definition id with
  | error detail => simp [readDefinition, Traced.read, hd] at h
  | ok found =>
    cases found with
    | none => simp [readDefinition, Traced.read, hd] at h
    | some s => simpa [readDefinition, Traced.read, hd] using h

/-- The answer of a definition, given how constituents are resolved. -/
def answer (source : Source) (method : Method) (query : Query)
    (resolve : SeriesId → Traced Read (List Observation)) : Series → Traced Read (List Observation)
  | .primitive binding => Primitive.call source binding method query
  | .composed composition => composition.combineWith resolve

/-- How the constituents below a series are resolved. -/
def resolveBelow (c : Catalogue) (source : Source) (method : Method) (query : Query)
    (path : List SeriesId) (k : SeriesId) : Traced Read (List Observation) :=
  (c.evaluateBelow source method query path k).mapError (.constituent k)

theorem evaluateBelow_of_mem {path : List SeriesId} {id : SeriesId} (h : id ∈ path) :
    c.evaluateBelow source method query path id = .done (.error (.cyclicComposition id)) := by
  rw [evaluateBelow, dif_pos h]

/-- A series that is not on the way down is looked up, and answered with itself on the way. -/
theorem evaluateBelow_of_not_mem {path : List SeriesId} {id : SeriesId} (h : id ∉ path) :
    c.evaluateBelow source method query path id = c.readDefinition id >>=
      answer source method query (c.resolveBelow source method query (id :: path)) := by
  rw [evaluateBelow, dif_neg h]
  dsimp only
  split
  · next e hd => rw [Traced.bind_of_error hd]
  · next binding hd => rw [Traced.bind_of_ok hd]; rfl
  · next composition hd => rw [Traced.bind_of_ok hd]; rfl

theorem evaluateBelow_of_composed {path : List SeriesId} {id : SeriesId} {comp : Composition}
    (h : id ∉ path) (hd : c.definition id = .ok (some (.composed comp))) :
    c.evaluateBelow source method query path id =
      let result := comp.combineWith (c.resolveBelow source method query (id :: path))
      ⟨.definition id :: result.reads, result.outcome⟩ := by
  rw [evaluateBelow_of_not_mem h, readDefinition_of_ok hd]
  rfl

theorem evaluateBelow_of_primitive {path : List SeriesId} {id : SeriesId} {binding : Binding}
    (h : id ∉ path) (hd : c.definition id = .ok (some (.primitive binding))) :
    c.evaluateBelow source method query path id =
      let result := Primitive.call source binding method query
      ⟨.definition id :: result.reads, result.outcome⟩ := by
  rw [evaluateBelow_of_not_mem h, readDefinition_of_ok hd]
  rfl

/-- An answer is that of a definition, off the way down. -/
theorem exists_answer_of_ok {path : List SeriesId} {id : SeriesId} {rows : List Observation}
    (h : (c.evaluateBelow source method query path id).outcome = .ok rows) :
    id ∉ path ∧ ∃ series, c.definition id = .ok (some series) ∧
      (answer source method query (c.resolveBelow source method query (id :: path))
        series).outcome = .ok rows := by
  by_cases hid : id ∈ path
  · rw [evaluateBelow_of_mem hid] at h
    cases h
  · rw [evaluateBelow_of_not_mem hid, Traced.outcome_bind] at h
    cases hd : (c.readDefinition id).outcome with
    | error e =>
      rw [hd] at h
      cases h
    | ok series =>
      rw [hd] at h
      exact ⟨hid, series, definition_of_readDefinition hd, h⟩

end Evaluation

/-- To prove something of every series below every path it is enough to prove it of a series with
its constituents below the longer path at hand. -/
theorem below_induction (c : Catalogue) {motive : List SeriesId → SeriesId → Prop}
    (step : ∀ path id,
      (id ∉ path → ∀ k, c.HasConstituent id k → motive (id :: path) k) → motive path id)
    (path : List SeriesId) (id : SeriesId) : motive path id := by
  apply step
  intro hid k hk
  have hshorter : (c.unvisited (id :: path)).length < (c.unvisited path).length := by
    obtain ⟨comp, hd, -⟩ := hk
    exact length_unvisited_lt (c.mem_registered hd) hid
  exact below_induction c step (id :: path) k
termination_by (c.unvisited path).length

/-- Only those identifiers on the way down matter that can be reached again. -/
theorem evaluateBelow_congr {c : Catalogue} {source : Source} {method : Method} {query : Query}
    (path : List SeriesId) (id : SeriesId) {path' : List SeriesId}
    (h : ∀ x, c.Reaches id x → (x ∈ path ↔ x ∈ path')) :
    c.evaluateBelow source method query path id =
      c.evaluateBelow source method query path' id := by
  induction path, id using below_induction c generalizing path' with
  | step path id ih =>
  by_cases hid : id ∈ path
  · rw [evaluateBelow_of_mem hid, evaluateBelow_of_mem ((h id .refl).1 hid)]
  · have hid' : id ∉ path' := fun hmem => hid ((h id .refl).2 hmem)
    cases hd : (c.readDefinition id).outcome with
    | error e =>
      rw [evaluateBelow_of_not_mem hid, evaluateBelow_of_not_mem hid',
        Traced.bind_of_error hd, Traced.bind_of_error hd]
    | ok series =>
      have hd := definition_of_readDefinition hd
      cases series with
      | primitive binding =>
        rw [evaluateBelow_of_primitive hid hd, evaluateBelow_of_primitive hid' hd]
      | composed comp =>
        have hresolve : comp.combineWith (c.resolveBelow source method query (id :: path)) =
            comp.combineWith (c.resolveBelow source method query (id :: path')) := by
          apply Composition.combineWith_congr
          intro k hk
          have hedge : c.HasConstituent id k.id := ⟨comp, hd, k, hk, rfl⟩
          have hpath (x : SeriesId) (hx : c.Reaches k.id x) : x ∈ id :: path ↔ x ∈ id :: path' := by
            rw [List.mem_cons, List.mem_cons, h x (.head hedge hx)]
          have hbelow := ih hid k.id hedge hpath
          rw [resolveBelow, resolveBelow, hbelow]
        rw [evaluateBelow_of_composed hid hd, evaluateBelow_of_composed hid' hd, hresolve]

end Catalogue
end TimeSeries
