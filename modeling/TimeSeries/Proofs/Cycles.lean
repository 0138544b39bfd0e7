import TimeSeries.Proofs.PathIndependence
import TimeSeries.Proofs.PointRange

/-!
Series that are made of themselves. An evaluation blames a cycle only if there is one to be met, and
answers only if everything below it is defined, can be divided by its total weight and is on no
cycle. Meeting a series twice on different ways down is no cycle.
-/
namespace TimeSeries

/-! ## What fails below a composition -/

namespace Primitive

/-- What can go wrong when a table is read. -/
inductive Unanswered : Error → Prop
  | store (detail : Option String) : Unanswered (.backingStore detail)
  | noData : Unanswered .noDataFound
  | notOne (what : String) (got : Nat) : Unanswered (.expectedExactlyOne what got)

/-- What can go wrong with a table, or when its values are related to a base. -/
inductive Failure : Error → Prop
  | store (detail : Option String) : Failure (.backingStore detail)
  | noData : Failure .noDataFound
  | notOne (what : String) (got : Nat) : Failure (.expectedExactlyOne what got)
  | zeroBase : Failure .divisionByZero
  | tooLarge : Failure .overflow

theorem Unanswered.failure {e : Error} (h : Unanswered e) : Failure e := by
  cases h with
  | store detail => exact .store detail
  | noData => exact .noData
  | notOne what got => exact .notOne what got

theorem Failure.not_cyclic {e : Error} (h : Failure e) (x : SeriesId) :
    e.innermost ≠ .cyclicComposition x := by
  cases h <;> nofun

variable {source : Source} {binding : Binding} {query : Query} {e : Error}

theorem unanswered_of_fetch {lookup : Lookup}
    (h : (fetch source binding lookup).outcome = .error e) : Unanswered e := by
  obtain ⟨detail, -, rfl⟩ := mapError_eq_error_iff.1 h
  exact .store detail

theorem unanswered_of_single {lookup : Lookup} {what : String}
    (h : (single source binding lookup what).outcome = .error e) : Unanswered e := by
  rw [single, Traced.outcome_bind, bind_eq_error_iff] at h
  rcases h with h | ⟨rows, -, h⟩
  · exact unanswered_of_fetch h
  · dsimp only at h
    split at h
    · cases h
      exact .notOne what rows.length
    · cases h

theorem unanswered_of_backfill {day : Date} {found : List Observation}
    (h : (backfill source binding day found).outcome = .error e) : Unanswered e := by
  rw [backfill] at h
  split at h
  · cases h
  · rw [Traced.outcome_bind, bind_eq_error_iff] at h
    rcases h with h | ⟨before, -, h⟩
    · exact unanswered_of_single h
    · cases before <;> cases h

theorem unanswered_of_nonempty {found : Traced Read (List Observation)}
    (hfound : found.outcome = .error e → Unanswered e)
    (h : (found >>= fun rows => liftM (nonempty rows)).outcome = .error e) : Unanswered e := by
  rw [Traced.outcome_bind, bind_eq_error_iff] at h
  rcases h with h | ⟨rows, -, h⟩
  · exact hfound h
  · cases rows with
    | nil =>
      cases h
      exact .noData
    | cons o rows => cases h

theorem unanswered_of_value (h : (value source binding query).outcome = .error e) :
    Unanswered e := by
  rw [value] at h
  cases hq : query.resolution <;> rw [hq] at h <;> dsimp only at h
  case base => exact unanswered_of_nonempty unanswered_of_single h
  case latest => exact unanswered_of_nonempty unanswered_of_single h
  all_goals
    rw [Traced.outcome_bind, bind_eq_error_iff] at h
    rcases h with h | ⟨rows, -, h⟩
    · exact unanswered_of_fetch h
    · exact unanswered_of_nonempty unanswered_of_backfill h

theorem failure_of_fitting {q : Int} (h : fitting q = .error e) : Failure e := by
  obtain ⟨rfl, -⟩ := fitting_eq_error_iff.1 h
  exact .tooLarge

theorem failure_of_relativeTo {base : Value} {o : Observation}
    (h : relativeTo base o = .error e) : Failure e := by
  rw [relativeTo, bind_eq_error_iff] at h
  rcases h with h | ⟨v, -, h⟩
  · rw [fractionTowardZero] at h
    split at h
    · cases h
      exact .zeroBase
    · exact failure_of_fitting h
  · cases h

theorem failure_of_index (h : (index source binding query).outcome = .error e) : Failure e := by
  rw [outcome_index, bind_eq_error_iff] at h
  rcases h with h | ⟨bases, -, h⟩
  · exact (unanswered_of_value h).failure
  · split at h
    · rcases bind_eq_error_iff.1 h with h | ⟨current, -, h⟩
      · exact (unanswered_of_value h).failure
      · split at h
        · cases h
          exact .notOne _ _
        · obtain ⟨before, o, after, -, -, ho⟩ := mapM_eq_error_iff.1 h
          exact failure_of_relativeTo ho
    · cases h
      exact .notOne _ _

theorem failure_of_call {method : Method}
    (h : (call source binding method query).outcome = .error e) : Failure e := by
  cases method with
  | value => exact (unanswered_of_value h).failure
  | index => exact failure_of_index h

end Primitive

namespace Composition

variable {ρ : Type} {c : Composition} {resolve : SeriesId → Traced ρ (List Observation)}

/-- A composition fails by its own numbers, or as the first of its constituents that fails. -/
theorem first_failure_of_combineWith {e : Error}
    (h : (c.combineWith resolve).outcome = .error e) :
    e = .overflow ∨ (e = .divisionByZero ∧ c.totalWeight = 0) ∨
      ∃ before k after, c.Divides ∧ c.constituents = before ++ k :: after ∧
        (∀ b ∈ before, ∃ s, c.Supplies resolve b s) ∧ c.FailsWith resolve k e := by
  obtain ⟨x, hx⟩ := exists_combines c resolve
  rw [combineWith_eq_of_combines hx] at h
  cases hx with
  | totalTooLarge _ =>
    cases h
    exact .inl rfl
  | totalZero hzero =>
    cases h
    exact .inr (.inl ⟨rfl, hzero⟩)
  | @fails before k after e' hc hsplit hbefore hk =>
    cases h
    exact .inr (.inr ⟨before, k, after, hc, hsplit, hbefore, hk⟩)
  | sumTooLarge _ _ _ _ =>
    cases h
    exact .inl rfl
  | total _ _ _ => cases h

/-- A composition fails by its own numbers or because a constituent does. -/
theorem failure_of_combineWith {e : Error} (h : (c.combineWith resolve).outcome = .error e) :
    e = .overflow ∨ e = .divisionByZero ∨ ∃ k ∈ c.constituents, c.FailsWith resolve k e := by
  rcases first_failure_of_combineWith h with
    rfl | ⟨rfl, -⟩ | ⟨before, k, after, -, hsplit, -, hk⟩
  · exact .inl rfl
  · exact .inr (.inl rfl)
  · exact .inr (.inr ⟨k, by simp [hsplit], hk⟩)

end Composition

namespace Catalogue

variable {c : Catalogue} {source : Source} {method : Method} {query : Query}

/-- The series is met again below itself. -/
def OnCycle (c : Catalogue) (id : SeriesId) : Prop := Relation.TransGen c.HasConstituent id id

/-! ## Blaming a cycle -/

theorem readDefinition_ne_cyclic {id : SeriesId} {e : Error}
    (h : (c.readDefinition id).outcome = .error e) (x : SeriesId) :
    e.innermost ≠ .cyclicComposition x := by
  rw [readDefinition, Traced.read] at h
  cases hd : c.definition id with
  | error detail =>
    rw [hd] at h
    cases h
    intro hx
    cases hx
  | ok found =>
    rw [hd] at h
    cases found with
    | none =>
      cases h
      intro hx
      cases hx
    | some series => cases h

/-- The series that is blamed is on the way down already, or on a cycle further down. -/
theorem mem_or_onCycle_of_cyclic {path : List SeriesId} {id x : SeriesId} {e : Error}
    (h : (c.evaluateBelow source method query path id).outcome = .error e)
    (hx : e.innermost = .cyclicComposition x) : c.Reaches id x ∧ (x ∈ path ∨ c.OnCycle x) := by
  induction path, id using below_induction c generalizing e with
  | step path id ih =>
  by_cases hid : id ∈ path
  · rw [evaluateBelow_of_mem hid] at h
    cases h
    cases hx
    exact ⟨.refl, .inl hid⟩
  · cases hd : (c.readDefinition id).outcome with
    | error e' =>
      rw [evaluateBelow_of_not_mem hid, Traced.bind_of_error hd] at h
      cases h
      exact absurd hx (readDefinition_ne_cyclic hd x)
    | ok series =>
      have hd := definition_of_readDefinition hd
      cases series with
      | primitive binding =>
        rw [evaluateBelow_of_primitive hid hd] at h
        exact absurd hx ((Primitive.failure_of_call h).not_cyclic x)
      | composed comp =>
        rw [evaluateBelow_of_composed hid hd] at h
        rcases Composition.failure_of_combineWith h with rfl | rfl | ⟨k, hk, hfails⟩
        · cases hx
        · cases hx
        · have hedge : c.HasConstituent id k.id := ⟨comp, hd, k, hk, rfl⟩
          cases hfails with
          | unweighted _ _ => cases hx
          | unresolved hk =>
            obtain ⟨e', he', rfl⟩ := mapError_eq_error_iff.1 hk
            obtain ⟨hreaches, hwhere⟩ := ih hid k.id hedge he' hx
            refine ⟨.head hedge hreaches, ?_⟩
            -- The constituent has the series itself on its way down: meeting it closes a cycle.
            rcases hwhere with hmem | hcycle
            · rcases List.mem_cons.1 hmem with rfl | hmem
              · exact .inr (.head' hedge hreaches)
              · exact .inl hmem
            · exact .inr hcycle

/-! ## Answering -/

/-- A composition answers only if its constituents do. -/
theorem exists_ok_of_hasConstituent {path : List SeriesId} {id k : SeriesId}
    {rows : List Observation}
    (h : (c.evaluateBelow source method query path id).outcome = .ok rows)
    (hedge : c.HasConstituent id k) :
    ∃ rows', (c.evaluateBelow source method query (id :: path) k).outcome = .ok rows' := by
  obtain ⟨-, series, hd, h⟩ := exists_answer_of_ok h
  obtain ⟨comp, hcomp, m, hm, rfl⟩ := hedge
  rw [hd] at hcomp
  cases hcomp
  obtain ⟨-, series, hs, -⟩ := Composition.exists_total_of_combineWith h
  obtain ⟨s, -, hsupplies⟩ := exists_of_forall₂_left hs hm
  exact ⟨s, mapError_eq_ok_iff.1 hsupplies.1⟩

/-- An answer takes answers of everything that is reached, with at least as much on the way down. -/
theorem exists_ok_of_reaches {path : List SeriesId} {id x : SeriesId} {rows : List Observation}
    (h : (c.evaluateBelow source method query path id).outcome = .ok rows)
    (hreaches : c.Reaches id x) : ∃ path', path ⊆ path' ∧
      ∃ rows', (c.evaluateBelow source method query path' x).outcome = .ok rows' := by
  induction hreaches with
  | refl => exact ⟨path, List.Subset.refl path, rows, h⟩
  | @tail y x _ hedge ih =>
    obtain ⟨path', hsub, rows', hok⟩ := ih
    exact ⟨y :: path', List.subset_cons_of_subset y hsub, exists_ok_of_hasConstituent hok hedge⟩

theorem not_onCycle_of_ok {path : List SeriesId} {id : SeriesId} {rows : List Observation}
    (h : (c.evaluateBelow source method query path id).outcome = .ok rows) : ¬ c.OnCycle id := by
  intro hcycle
  obtain ⟨k, hedge, hback⟩ := Relation.TransGen.head'_iff.1 hcycle
  obtain ⟨rows', hok⟩ := exists_ok_of_hasConstituent h hedge
  obtain ⟨path', hsub, rows'', hagain⟩ := exists_ok_of_reaches hok hback
  rw [evaluateBelow_of_mem (hsub List.mem_cons_self)] at hagain
  cases hagain

/-- A series that answers has a definition, and a composition a total weight to divide by. -/
theorem exists_definition_of_ok {path : List SeriesId} {id : SeriesId} {rows : List Observation}
    (h : (c.evaluateBelow source method query path id).outcome = .ok rows) :
    ∃ series, c.definition id = .ok (some series) ∧
      ∀ comp, series = .composed comp → comp.totalWeight ≠ 0 := by
  obtain ⟨-, series, hd, h⟩ := exists_answer_of_ok h
  refine ⟨series, hd, ?_⟩
  rintro comp rfl
  obtain ⟨hdivides, -⟩ := Composition.exists_total_of_combineWith h
  exact hdivides.2

/-- No cycle is blamed where none can be reached, however often series are shared. There is no
answer if a cycle, an identifier without a definition or a composition without weight can be
reached. -/
theorem evaluate_cycles (c : Catalogue) (source : Source) (method : Method) (query : Query)
    (id : SeriesId) :
    let outcome := (c.evaluate source id method query).outcome
    ((∀ x, c.Reaches id x → ¬ c.OnCycle x) →
        ∀ e x, outcome = .error e → e.innermost ≠ .cyclicComposition x) ∧
      ((∃ x, c.Reaches id x ∧ (c.OnCycle x ∨ (∀ series, c.definition x ≠ .ok (some series)) ∨
          ∃ comp, c.definition x = .ok (some (.composed comp)) ∧ comp.totalWeight = 0)) →
        ∀ rows, outcome ≠ .ok rows) := by
  refine ⟨fun hnone e x he hx => ?_, ?_⟩
  · obtain ⟨hreaches, hmem | hcycle⟩ := mem_or_onCycle_of_cyclic he hx
    · cases hmem
    · exact hnone x hreaches hcycle
  · rintro ⟨x, hreaches, hx⟩ rows hok
    obtain ⟨path, -, rows', hok⟩ := exists_ok_of_reaches hok hreaches
    obtain ⟨series, hd, hweight⟩ := exists_definition_of_ok hok
    rcases hx with hcycle | hundefined | ⟨comp, hcomp, hzero⟩
    · exact not_onCycle_of_ok hok hcycle
    · exact hundefined series hd
    · rw [hd] at hcomp
      cases hcomp
      exact hweight comp rfl hzero

/-- Where every constituent stands lower than its composition there are no cycles. -/
theorem not_onCycle_of_rank (ids : List SeriesId) (rank : SeriesId → Nat)
    (h : ∀ a ∈ ids, ∀ k ∈ c.constituentIds a, k ∈ ids ∧ rank k < rank a) {id x : SeriesId}
    (hid : id ∈ ids) (hreaches : c.Reaches id x) : ¬ c.OnCycle x := by
  have hstep {a b : SeriesId} (hedge : c.HasConstituent a b) (ha : a ∈ ids) :
      b ∈ ids ∧ rank b < rank a := h a ha b (mem_constituentIds.2 hedge)
  have hx : x ∈ ids := by
    induction hreaches with
    | refl => exact hid
    | tail _ hedge ih => exact (hstep hedge ih).1
  have hlower {b : SeriesId} (hbelow : Relation.TransGen c.HasConstituent x b) :
      b ∈ ids ∧ rank b < rank x := by
    induction hbelow with
    | single hedge => exact hstep hedge hx
    | tail _ hedge ih =>
      obtain ⟨hmem, hlt⟩ := hstep hedge ih.1
      exact ⟨hmem, Nat.lt_trans hlt ih.2⟩
  intro hcycle
  exact Nat.lt_irrefl _ (hlower hcycle).2

/-- Food counts twice in prices; trust and credit are made of each other, and wealth of both. -/
def economy : Registry := .ofList
  [("food", .primitive (.standard "food")), ("meals", .composed ⟨[⟨"food", 1⟩], 1⟩),
    ("drinks", .composed ⟨[⟨"food", 2⟩], 2⟩),
    ("consumer prices", .composed ⟨[⟨"meals", 1⟩, ⟨"drinks", 1⟩], 2⟩),
    ("trust", .composed ⟨[⟨"credit", 1⟩], 1⟩), ("credit", .composed ⟨[⟨"trust", 1⟩], 1⟩),
    ("wealth", .composed ⟨[⟨"consumer prices", 1⟩, ⟨"trust", 1⟩], 2⟩)]

theorem evaluate_cycles_economy :
    let c := economy.catalogue
    let source : Source := fun _ _ => .ok [⟨⟨⟨2024, 1, 31, by decide⟩, 1200⟩, "2024-02-01"⟩]
    let answer (id : SeriesId) := (c.evaluate source id .value .latest).outcome
    ((∀ x, c.Reaches "consumer prices" x → ¬ c.OnCycle x) ∧
        ∀ e x, answer "consumer prices" = .error e → e.innermost ≠ .cyclicComposition x) ∧
      (c.Reaches "wealth" "trust" ∧ c.OnCycle "trust") ∧ ∀ rows, answer "wealth" ≠ .ok rows := by
  intro c source answer
  have hprices (x : SeriesId) (hx : c.Reaches "consumer prices" x) : ¬ c.OnCycle x :=
    not_onCycle_of_rank ["food", "meals", "drinks", "consumer prices"] String.length (by decide)
      (by decide) hx
  have hedge {a b : SeriesId} (h : b ∈ c.constituentIds a) : c.HasConstituent a b :=
    mem_constituentIds.1 h
  have htrust : c.Reaches "wealth" "trust" := .single (hedge (by decide))
  have hcycle : c.OnCycle "trust" :=
    .tail (.single (hedge (b := "credit") (by decide))) (hedge (by decide))
  exact ⟨⟨hprices, (evaluate_cycles c source .value .latest "consumer prices").1 hprices⟩,
    ⟨htrust, hcycle⟩,
    (evaluate_cycles c source .value .latest "wealth").2 ⟨"trust", htrust, .inl hcycle⟩⟩

end Catalogue
end TimeSeries
