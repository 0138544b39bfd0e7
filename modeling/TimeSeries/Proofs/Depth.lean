import Mathlib.Data.List.Perm.Subperm
import TimeSeries.Proofs.Frames

/-!
How deep an evaluation goes. It comes to a series through compositions that are all different, each
a constituent of the one before, so that there are never more of them than series registered. An
evaluation that is stopped one call further down than that gives the same answer as one that is
never stopped.
-/
namespace TimeSeries

namespace Catalogue

/-- A series that an evaluation comes to, and the series that it has come through, innermost
first. -/
structure Visit where
  path : List SeriesId
  id : SeriesId

section Visits
variable (c : Catalogue) (source : Source) (method : Method) (query : Query)

/-- One visit leads to another: the series of the first is a composition that has not been come
through, and when it is combined it asks for the series of the second. -/
def LeadsTo (v w : Visit) : Prop :=
  v.id ∉ v.path ∧ w.path = v.id :: v.path ∧
    ∃ comp, c.definition v.id = .ok (some (.composed comp)) ∧
      w.id ∈ comp.asked (c.resolveBelow source method query w.path)

/-- The visit is one of those that the evaluation of the series makes. -/
def Visits (id : SeriesId) (v : Visit) : Prop :=
  Relation.ReflTransGen (c.LeadsTo source method query) ⟨[], id⟩ v

/-- The evaluation of a series below a path with some number of calls left, one of them its own.
Where none is left, the answer is made up. -/
def evaluateWithin (beyond : List SeriesId → SeriesId → Traced Read (List Observation)) :
    Nat → List SeriesId → SeriesId → Traced Read (List Observation)
  | 0, path, id => beyond path id
  | calls + 1, path, id =>
    if id ∈ path then .done (.error (.cyclicComposition id))
    else c.readDefinition id >>= answer source method query fun k =>
      (evaluateWithin beyond calls (id :: path) k).mapError (.constituent k)

end Visits

variable {c : Catalogue} {source : Source} {method : Method} {query : Query}

/-! ## The way down -/

/-- The way down from the first series to a visit: compositions without repetition, each a
constituent of the one before. -/
structure Visit.IsBelow (c : Catalogue) (first : SeriesId) (v : Visit) : Prop where
  nodup : v.path.Nodup
  composed : ∀ x ∈ v.path, ∃ comp, c.definition x = .ok (some (.composed comp))
  chain : (v.id :: v.path).IsChain fun k x => c.HasConstituent x k
  getLast : (v.id :: v.path).getLast (List.cons_ne_nil v.id v.path) = first

namespace Visit.IsBelow

variable {first : SeriesId} {v w : Visit}

theorem start (c : Catalogue) (first : SeriesId) : IsBelow c first ⟨[], first⟩ :=
  ⟨.nil, nofun, .singleton first, rfl⟩

/-- The way down gets one series longer. -/
theorem down (h : v.IsBelow c first) (hv : v.id ∉ v.path) {k : SeriesId}
    (hedge : c.HasConstituent v.id k) : IsBelow c first ⟨v.id :: v.path, k⟩ where
  nodup := List.nodup_cons.2 ⟨hv, h.nodup⟩
  composed := by
    obtain ⟨comp, hd, -⟩ := hedge
    exact List.forall_mem_cons.2 ⟨⟨comp, hd⟩, h.composed⟩
  chain := .cons_cons hedge h.chain
  getLast := h.getLast

theorem leadsTo (h : v.IsBelow c first) (hlead : c.LeadsTo source method query v w) :
    w.IsBelow c first := by
  obtain ⟨path, k⟩ := w
  obtain ⟨hv, rfl, comp, hd, hasked⟩ := hlead
  obtain ⟨m, hm, rfl⟩ := List.mem_map.1 ((comp.asked_prefix _).subset hasked)
  exact h.down hv ⟨comp, hd, m, hm, rfl⟩

/-- No more series have been come through than there are. -/
theorem length_le (h : v.IsBelow c first) : v.path.length ≤ c.registered.length := by
  apply (h.nodup.subperm ?_).length_le
  intro x hx
  obtain ⟨comp, hd⟩ := h.composed x hx
  exact c.mem_registered hd

end Visit.IsBelow

theorem Visits.isBelow {id : SeriesId} {v : Visit} (h : c.Visits source method query id v) :
    v.IsBelow c id := by
  induction h with
  | refl => exact .start c id
  | tail _ hlead ih => exact ih.leadsTo hlead

/-! ## Visits and reads -/

/-- From the visit on, the series is come to without having been come through. -/
def Meets (c : Catalogue) (source : Source) (method : Method) (query : Query) (v : Visit)
    (x : SeriesId) : Prop :=
  ∃ path, Relation.ReflTransGen (c.LeadsTo source method query) v ⟨path, x⟩ ∧ x ∉ path

/-- What is met is the series itself, or it is met from a constituent that is asked for. -/
theorem meets_iff {path : List SeriesId} {id x : SeriesId} :
    c.Meets source method query ⟨path, id⟩ x ↔ id ∉ path ∧
      (x = id ∨ ∃ comp, c.definition id = .ok (some (.composed comp)) ∧
        ∃ k ∈ comp.asked (c.resolveBelow source method query (id :: path)),
          c.Meets source method query ⟨id :: path, k⟩ x) := by
  constructor
  · rintro ⟨path', hvisit, hx⟩
    rcases Relation.ReflTransGen.cases_head hvisit with
      heq | ⟨⟨_, k⟩, ⟨hid, rfl, comp, hd, hk⟩, hvisit⟩
    · cases heq
      exact ⟨hx, .inl rfl⟩
    · exact ⟨hid, .inr ⟨comp, hd, k, hk, path', hvisit, hx⟩⟩
  · rintro ⟨hid, rfl | ⟨comp, hd, k, hk, path', hvisit, hx⟩⟩
    · exact ⟨path, .refl, hid⟩
    · have hlead : c.LeadsTo source method query ⟨path, id⟩ ⟨id :: path, k⟩ :=
        ⟨hid, rfl, comp, hd, hk⟩
      exact ⟨path', .head hlead hvisit, hx⟩

theorem definition_notMem_reads_call (binding : Binding) (x : SeriesId) :
    .definition x ∉ (Primitive.call source binding method query).reads := by
  intro hx
  obtain ⟨lookup, hlookup⟩ := Primitive.readsOnly_call source binding method query _ hx
  cases hlookup

/-- The definitions that are read are those of the series that are met. -/
theorem definition_mem_reads_iff (path : List SeriesId) (id : SeriesId) {x : SeriesId} :
    .definition x ∈ (c.evaluateBelow source method query path id).reads ↔
      c.Meets source method query ⟨path, id⟩ x := by
  induction path, id using below_induction c with
  | step path id ih =>
  rw [meets_iff]
  by_cases hid : id ∈ path
  · rw [evaluateBelow_of_mem hid]
    exact ⟨nofun, fun h => absurd hid h.1⟩
  · rw [and_iff_right hid]
    cases hd : (c.readDefinition id).outcome with
    | error e =>
      have hnone (comp : Composition) : c.definition id ≠ .ok (some (.composed comp)) := by
        intro hcomp
        rw [readDefinition_of_ok hcomp] at hd
        cases hd
      rw [evaluateBelow_of_not_mem hid, Traced.bind_of_error hd]
      simp [readDefinition, Traced.read, hnone]
    | ok series =>
      have hd := definition_of_readDefinition hd
      cases series with
      | primitive binding =>
        rw [evaluateBelow_of_primitive hid hd]
        simp [definition_notMem_reads_call, hd]
      | composed comp =>
        have hbelow (k : SeriesId)
            (hk : k ∈ comp.asked (c.resolveBelow source method query (id :: path))) :
            .definition x ∈ (c.resolveBelow source method query (id :: path) k).reads ↔
              c.Meets source method query ⟨id :: path, k⟩ x := by
          obtain ⟨m, hm, rfl⟩ := List.mem_map.1 ((comp.asked_prefix _).subset hk)
          exact ih hid m.id ⟨comp, hd, m, hm, rfl⟩
        have hasked := exists_congr fun k => and_congr_right (hbelow k)
        rw [evaluateBelow_of_composed hid hd]
        simp [Composition.reads_combineWith, hd, hasked]

/-! ## Calls -/

/-- By induction on the number of calls: it goes down by one where the way down gets longer by
one. -/
theorem evaluateWithin_eq
    (beyond : List SeriesId → SeriesId → Traced Read (List Observation)) {first : SeriesId}
    {calls : Nat} {path : List SeriesId} {id : SeriesId} (h : Visit.IsBelow c first ⟨path, id⟩)
    (hcalls : c.registered.length < path.length + calls) :
    c.evaluateWithin source method query beyond calls path id =
      c.evaluateBelow source method query path id := by
  induction calls generalizing path id with
  | zero => exact absurd h.length_le (Nat.not_le.2 hcalls)
  | succ calls ih =>
    rw [evaluateWithin]
    by_cases hid : id ∈ path
    · rw [if_pos hid, evaluateBelow_of_mem hid]
    · rw [if_neg hid, evaluateBelow_of_not_mem hid]
      cases hd : (c.readDefinition id).outcome with
      | error e => rw [Traced.bind_of_error hd, Traced.bind_of_error hd]
      | ok series =>
        rw [Traced.bind_of_ok hd, Traced.bind_of_ok hd]
        have hd := definition_of_readDefinition hd
        have hanswer : answer source method query (fun k =>
            (c.evaluateWithin source method query beyond calls (id :: path) k).mapError
              (.constituent k)) series =
            answer source method query (c.resolveBelow source method query (id :: path))
              series := by
          cases series with
          | primitive binding => rfl
          | composed comp =>
            apply Composition.combineWith_congr
            intro k hk
            have hedge : c.HasConstituent id k.id := ⟨comp, hd, k, hk, rfl⟩
            rw [resolveBelow, ih (h.down hid hedge) (by simp only [List.length_cons]; omega)]
        rw [hanswer]

end Catalogue

open Catalogue

/-- The evaluation of a series ends, whatever the definitions in the registry. It visits series, and
reads the definitions of those that it has not come through. At every visit what it has come through
are compositions without repetition, from the series that was asked for down to the one before the
visit, each a constituent of the one before it; so these are no more than the registry has entries.
With one call more than that, the answer is the same whatever calls beyond would answer. -/
theorem Registry.evaluate_depth (r : Registry) (source : Source) (id : SeriesId) (method : Method)
    (query : Query) :
    let c := r.catalogue
    let answer := c.evaluate source id method query
    (∀ x, .definition x ∈ answer.reads ↔
        ∃ path, c.Visits source method query id ⟨path, x⟩ ∧ x ∉ path) ∧
      (∀ path k, c.Visits source method query id ⟨path, k⟩ →
        path.Nodup ∧ (∀ x ∈ path, ∃ comp, r.find? x = some (.composed comp)) ∧
          (k :: path).IsChain (fun k x => c.HasConstituent x k) ∧
          (k :: path).getLast (List.cons_ne_nil k path) = id ∧
            path.length ≤ r.toList.length) ∧
      ∀ beyond, c.evaluateWithin source method query beyond (r.toList.length + 1) [] id =
        answer := by
  intro c answer
  have hregistered : c.registered.length = r.toList.length := List.length_map _
  refine ⟨fun x => definition_mem_reads_iff [] id, fun path k hvisit => ?_, fun beyond => ?_⟩
  · have h := hvisit.isBelow
    refine ⟨h.nodup, fun x hx => ?_, h.chain, h.getLast, hregistered ▸ h.length_le⟩
    obtain ⟨comp, hd⟩ := h.composed x hx
    exact ⟨comp, Except.ok.inj hd⟩
  · apply evaluateWithin_eq beyond (.start c id)
    rw [hregistered, List.length_nil]
    omega

/-- Two compositions that are made of each other. -/
def mirrors : Registry := .ofList
  [("trust", .composed ⟨[⟨"credit", 1⟩], 1⟩), ("credit", .composed ⟨[⟨"trust", 1⟩], 1⟩)]

/-- The evaluation comes back to trust through both of them. -/
theorem Registry.evaluate_depth_mirrors :
    let c := mirrors.catalogue
    let source : Source := fun _ _ => .ok []
    let answer := c.evaluate source "trust" .value .latest
    c.Visits source .value .latest "trust" ⟨["credit", "trust"], "trust"⟩ ∧
      mirrors.toList.length = 2 ∧ ["credit", "trust"].length ≤ mirrors.toList.length ∧
      answer.outcome = .error (.constituent "credit"
        (.constituent "trust" (.cyclicComposition "trust"))) ∧
      ∀ beyond, c.evaluateWithin source .value .latest beyond 3 [] "trust" = answer := by
  have hanswer : (mirrors.catalogue.evaluate (fun _ _ => .ok []) "trust" .value .latest).outcome =
      .error (.constituent "credit" (.constituent "trust" (.cyclicComposition "trust"))) := by
    decide +kernel
  have hcredit : "credit" ∈ Composition.asked ⟨[⟨"credit", 1⟩], 1⟩
      (mirrors.catalogue.resolveBelow (fun _ _ => .ok []) .value .latest ["trust"]) := by
    decide +kernel
  have htrust : "trust" ∈ Composition.asked ⟨[⟨"trust", 1⟩], 1⟩
      (mirrors.catalogue.resolveBelow (fun _ _ => .ok []) .value .latest ["credit", "trust"]) := by
    decide +kernel
  intro c source answer
  obtain ⟨-, hvisits, hwithin⟩ := Registry.evaluate_depth mirrors source "trust" .value .latest
  have hcredit : c.LeadsTo source .value .latest ⟨[], "trust"⟩ ⟨["trust"], "credit"⟩ :=
    ⟨by decide, rfl, ⟨[⟨"credit", 1⟩], 1⟩, by decide, hcredit⟩
  have htrust : c.LeadsTo source .value .latest ⟨["trust"], "credit"⟩
      ⟨["credit", "trust"], "trust"⟩ :=
    ⟨by decide, rfl, ⟨[⟨"trust", 1⟩], 1⟩, by decide, htrust⟩
  have hvisit : c.Visits source .value .latest "trust" ⟨["credit", "trust"], "trust"⟩ :=
    .tail (.single hcredit) htrust
  obtain ⟨-, -, -, -, hlength⟩ := hvisits _ _ hvisit
  exact ⟨hvisit, by decide, hlength, hanswer, hwithin⟩

end TimeSeries
