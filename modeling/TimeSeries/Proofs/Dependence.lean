import TimeSeries.Proofs.PrimitiveAnswers
import TimeSeries.Proofs.Reachability

/-!
What an answer depends on: of a source, on the lookups that the query takes in the tables that are
reached, and of a catalogue on its definitions.
-/
namespace TimeSeries

/-- The dates that decide which rows answer a query. -/
def Query.dates (q : Query) : List Date :=
  match q.resolution with
  | .base | .latest => []
  | .exact day => [day]
  | .range first last => [first, last]

/-- The lookups that a query can take in a table. -/
def Query.lookups (q : Query) : List Lookup :=
  .base :: match q.resolution with
    | .base => []
    | .latest => [.latest]
    | .exact day => [.exact day, .onOrBefore day]
    | .range first last => [.range first last, .onOrBefore first]

namespace Primitive

variable {source source' : Source} {binding : Binding}

theorem fetch_congr {lookup : Lookup} (h : source binding lookup = source' binding lookup) :
    fetch source binding lookup = fetch source' binding lookup := by
  rw [fetch, fetch, h]

theorem single_congr {lookup : Lookup} (h : source binding lookup = source' binding lookup)
    (what : String) : single source binding lookup what = single source' binding lookup what := by
  rw [single, single, fetch_congr h]

theorem backfill_congr {day : Date}
    (h : source binding (.onOrBefore day) = source' binding (.onOrBefore day))
    (found : List Observation) :
    backfill source binding day found = backfill source' binding day found := by
  rw [backfill, backfill, single_congr h]

section Call
variable {query : Query}
  (h : ∀ lookup ∈ query.lookups, source binding lookup = source' binding lookup)
include h

theorem value_congr : value source binding query = value source' binding query := by
  rw [Query.lookups, List.forall_mem_cons] at h
  obtain ⟨hbase, h⟩ := h
  rw [value, value]
  cases hq : query.resolution with
  | base =>
    dsimp only
    rw [single_congr hbase]
  | latest =>
    rw [hq] at h
    dsimp only
    rw [single_congr (h .latest (by simp))]
  | exact day =>
    rw [hq] at h
    have hbackfill := backfill_congr (h (.onOrBefore day) (by simp))
    dsimp only
    simp only [fetch_congr (h (.exact day) (by simp)), hbackfill]
  | range first last =>
    rw [hq] at h
    have hbackfill := backfill_congr (h (.onOrBefore first) (by simp))
    dsimp only
    simp only [fetch_congr (h (.range first last) (by simp)), hbackfill]

/-- A call takes no other lookup. -/
theorem call_congr (method : Method) :
    call source binding method query = call source' binding method query := by
  cases method with
  | value => exact value_congr h
  | index =>
    have hearliest : value source binding .earliest = value source' binding .earliest := by
      apply value_congr
      intro lookup hlookup
      obtain rfl : lookup = .base := List.mem_singleton.1 hlookup
      exact h .base List.mem_cons_self
    show index source binding query = index source' binding query
    rw [index, index, hearliest]
    simp only [value_congr h]

end Call

/-- A source that answers the lookups of a query from a table answers calls as one that answers
every lookup from it. -/
theorem outcome_call_eq_of_lookups {rows : List Recorded} {query : Query}
    (h : ∀ lookup ∈ query.lookups, ∃ found, source binding lookup = .ok found ∧
      Recorded.chronology.Documented rows lookup found)
    (h' : Answers source' binding rows) (method : Method) :
    (call source binding method query).outcome = (call source' binding method query).outcome := by
  -- Where the query does not look, a source may as well answer as the other one.
  let mixed : Source := fun b lookup =>
    if lookup ∈ query.lookups then source b lookup else source' b lookup
  have hmixed : Answers mixed binding rows := by
    refine ⟨h'.distinct, fun lookup => ?_⟩
    show ∃ found, (if lookup ∈ query.lookups then source binding lookup
      else source' binding lookup) = .ok found ∧ _
    split
    · next hlookup => exact h lookup hlookup
    · exact h'.documented lookup
  have hcall : call source binding method query = call mixed binding method query := by
    apply call_congr
    intro lookup hlookup
    exact (if_pos hlookup).symm
  rw [hcall]
  exact outcome_call_eq hmixed h' method query

end Primitive

namespace Composition

variable {ρ σ : Type}

/-- What combining comes to is a matter of what the constituents come to. -/
theorem outcome_combineWith_congr {c : Composition}
    {resolve : SeriesId → Traced ρ (List Observation)}
    {resolve' : SeriesId → Traced σ (List Observation)}
    (h : ∀ k ∈ c.constituents, (resolve k.id).outcome = (resolve' k.id).outcome) :
    (c.combineWith resolve).outcome = (c.combineWith resolve').outcome := by
  have hmap : (c.constituents.mapM (contribution c resolve)).outcome =
      (c.constituents.mapM (contribution c resolve')).outcome := by
    rw [Traced.outcome_mapM, Traced.outcome_mapM]
    apply mapM_congr
    intro k hk
    rw [outcome_contribution, outcome_contribution, h k hk]
  simp only [combineWith, Traced.outcome_bind, hmap, Traced.liftM_eq_done, Traced.outcome_done]

end Composition

namespace Catalogue

section Reached
variable {c c' : Catalogue} {source source' : Source} {method : Method} {query : Query}

/-- Catalogues with the same definitions of what is reached give the same answers if the calls of
the primitive series among it come to the same. -/
theorem outcome_evaluateBelow_congr_of_reaches {id : SeriesId}
    (hdefinition : ∀ x, c.Reaches id x → c'.definition x = c.definition x)
    (hcall : ∀ x binding, c.Reaches id x → c.definition x = .ok (some (.primitive binding)) →
      (Primitive.call source binding method query).outcome =
        (Primitive.call source' binding method query).outcome) (path : List SeriesId) :
    (c.evaluateBelow source method query path id).outcome =
      (c'.evaluateBelow source' method query path id).outcome := by
  induction path, id using below_induction c with
  | step path id ih =>
  by_cases hid : id ∈ path
  · rw [evaluateBelow_of_mem hid, evaluateBelow_of_mem hid]
  · have hself := hdefinition id .refl
    have hread : c'.readDefinition id = c.readDefinition id := by
      rw [readDefinition, readDefinition, hself]
    cases hd : (c.readDefinition id).outcome with
    | error e =>
      rw [evaluateBelow_of_not_mem hid, evaluateBelow_of_not_mem hid, hread,
        Traced.bind_of_error hd, Traced.bind_of_error hd]
    | ok series =>
      have hd := definition_of_readDefinition hd
      have hd' := hself.trans hd
      cases series with
      | primitive binding =>
        rw [evaluateBelow_of_primitive hid hd, evaluateBelow_of_primitive hid hd']
        exact hcall id binding .refl hd
      | composed comp =>
        rw [evaluateBelow_of_composed hid hd, evaluateBelow_of_composed hid hd']
        apply Composition.outcome_combineWith_congr
        intro k hk
        have hedge : c.HasConstituent id k.id := ⟨comp, hd, k, hk, rfl⟩
        rw [resolveBelow, resolveBelow, Traced.outcome_mapError, Traced.outcome_mapError,
          ih hid k.id hedge (fun x hx => hdefinition x (.head hedge hx))
            fun x binding hx => hcall x binding (.head hedge hx)]

/-- Catalogues with the same definitions give the same answers if the calls of their primitive
series come to the same. -/
theorem outcome_evaluateBelow_congr (hdefinition : ∀ id, c'.definition id = c.definition id)
    (hcall : ∀ id binding, c.definition id = .ok (some (.primitive binding)) →
      (Primitive.call source binding method query).outcome =
        (Primitive.call source' binding method query).outcome) (path : List SeriesId)
    (id : SeriesId) : (c.evaluateBelow source method query path id).outcome =
      (c'.evaluateBelow source' method query path id).outcome :=
  outcome_evaluateBelow_congr_of_reaches (fun x _ => hdefinition x)
    (fun x binding _ => hcall x binding) path

end Reached

end Catalogue
end TimeSeries
