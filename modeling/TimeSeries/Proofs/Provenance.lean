import TimeSeries.Proofs.Cycles

/-!
Where an error comes from. The tags around an error name the series on the way down to the one that
could not go on, each a constituent of the one before it and the first of its constituents that
failed; only the last of them says what went wrong.
-/
namespace TimeSeries

/-- There is one way to take the tags off an error. -/
theorem Error.foldr_constituent_inj {trail trail' : List SeriesId} {cause cause' : Error}
    (hcause : ∀ id e, cause ≠ .constituent id e) (hcause' : ∀ id e, cause' ≠ .constituent id e) :
    trail.foldr constituent cause = trail'.foldr constituent cause' ↔
      trail = trail' ∧ cause = cause' := by
  induction trail generalizing trail' with
  | nil =>
    cases trail' with
    | nil => simp
    | cons id' trail' => simp [hcause]
  | cons id trail ih =>
    cases trail' with
    | nil => simpa using (hcause' _ _).symm
    | cons id' trail' => simp [ih, and_assoc]

/-! ## Division by zero in a table -/

namespace Primitive

variable {source : Source} {binding : Binding} {query : Query} {e : Error}

theorem Failure.ne_constituent (h : Failure e) (id : SeriesId) (cause : Error) :
    e ≠ .constituent id cause := by
  cases h <;> nofun

/-- The base of an index is one of the rows that the source has for a base. -/
theorem exists_base_row {base : Observation}
    (h : (value source binding .earliest).outcome = .ok [base]) :
    ∃ rows, source binding .base = .ok rows ∧ ∃ row ∈ rows, row.toObservation = base := by
  change (single source binding .base "base value" >>= fun found =>
    liftM (nonempty found)).outcome = _ at h
  obtain ⟨found, hfound, hone⟩ := bind_eq_ok_iff.1 ((Traced.outcome_bind _ _).symm.trans h)
  obtain ⟨rfl, -⟩ := nonempty_eq_ok_iff.1 hone
  rw [single, Traced.outcome_bind, bind_eq_ok_iff] at hfound
  obtain ⟨rows, hrows, hfound⟩ := hfound
  refine ⟨rows, mapError_eq_ok_iff.1 hrows, ?_⟩
  dsimp only at hfound
  split at hfound
  · cases hfound
  · obtain hmap : rows.map (·.toObservation) = [base] := Except.ok.inj hfound
    exact List.mem_map.1 (hmap ▸ List.mem_singleton_self base)

theorem relativeTo_ne_divisionByZero {base : Value} (hbase : base ≠ 0) (o : Observation) :
    relativeTo base o ≠ .error .divisionByZero := by
  intro h
  rw [relativeTo, bind_eq_error_iff, fractionTowardZero, if_neg hbase] at h
  rcases h with h | ⟨v, -, h⟩
  · cases (fitting_eq_error_iff.1 h).1
  · cases h

/-- Nothing is divided by zero if the rows for the base have no zero. -/
theorem call_ne_divisionByZero {method : Method}
    (hbase : ∀ rows, source binding .base = .ok rows → ∀ row ∈ rows, row.value ≠ 0) :
    (call source binding method query).outcome ≠ .error .divisionByZero := by
  intro h
  cases method with
  | value => cases unanswered_of_value h
  | index =>
    change (index source binding query).outcome = _ at h
    rw [outcome_index, bind_eq_error_iff] at h
    rcases h with h | ⟨bases, hbases, h⟩
    · cases unanswered_of_value h
    · split at h
      · next base =>
        obtain ⟨rows, hrows, row, hrow, rfl⟩ := exists_base_row hbases
        rcases bind_eq_error_iff.1 h with h | ⟨current, -, h⟩
        · cases unanswered_of_value h
        · split at h
          · cases h
          · obtain ⟨before, o, after, -, -, ho⟩ := mapM_eq_error_iff.1 h
            exact relativeTo_ne_divisionByZero (hbase rows hrows row hrow) o ho
      · cases h

end Primitive

namespace Catalogue

variable {c : Catalogue} {source : Source} {method : Method} {query : Query}

/-- An answer does not depend on the way down to it. -/
theorem evaluate_eq_ok_of_below {path : List SeriesId} {id : SeriesId} {rows : List Observation}
    (h : (c.evaluateBelow source method query path id).outcome = .ok rows) :
    (c.evaluate source id method query).outcome = .ok rows := by
  rw [evaluate, ← h, ← evaluateBelow_congr path id]
  intro x hx
  obtain ⟨path', hsub, rows', hok⟩ := exists_ok_of_reaches h hx
  have hoff : x ∉ path := fun hmem => (exists_answer_of_ok hok).1 (hsub hmem)
  simp [hoff]

/-- The second series is a constituent of the first, and every one stored before it has been
evaluated and weighted. -/
def PassesTo (c : Catalogue) (source : Source) (method : Method) (query : Query)
    (id next : SeriesId) : Prop :=
  ∃ comp, c.definition id = .ok (some (.composed comp)) ∧
    ∃ before k after, comp.constituents = before ++ k :: after ∧ k.id = next ∧
      ∀ b ∈ before, ∃ rows weighted, (c.evaluate source b.id method query).outcome = .ok rows ∧
        Composition.weigh rows b.weight comp.totalWeight = .ok weighted

/-- What has been supplied on the way down would be the same from the start. -/
theorem passesTo_of_supplies {path : List SeriesId} {id : SeriesId} {comp : Composition}
    (hd : c.definition id = .ok (some (.composed comp))) (hdivides : comp.Divides)
    {before after : List Constituent} {k : Constituent}
    (hsplit : comp.constituents = before ++ k :: after)
    (hbefore : ∀ b ∈ before, ∃ s, comp.Supplies (c.resolveBelow source method query path) b s) :
    c.PassesTo source method query id k.id := by
  refine ⟨comp, hd, before, k, after, hsplit, rfl, fun b hb => ?_⟩
  obtain ⟨rows, hrows, hcan⟩ := hbefore b hb
  have hok := evaluate_eq_ok_of_below (mapError_eq_ok_iff.1 hrows)
  obtain ⟨weighted, hweighted⟩ := (Composition.exists_weigh_iff hdivides.1 hdivides.2).2 hcan
  exact ⟨rows, weighted, hok, hweighted⟩

/-- Why an evaluation cannot go on at a series, below others. -/
inductive StopsAt (c : Catalogue) (source : Source) (method : Method) (query : Query)
    (above : List SeriesId) (id : SeriesId) : Error → Prop
  | cyclic : id ∈ above → StopsAt c source method query above id (.cyclicComposition id)
  | unknown : c.definition id = .ok none →
      StopsAt c source method query above id (.unknownSeries id)
  | unreadable {detail} : c.definition id = .error detail →
      StopsAt c source method query above id (.backingStore detail)
  | primitive {binding e} : c.definition id = .ok (some (.primitive binding)) →
      (Primitive.call source binding method query).outcome = .error e →
      StopsAt c source method query above id e
  | totalZero {comp} : c.definition id = .ok (some (.composed comp)) → comp.totalWeight = 0 →
      StopsAt c source method query above id .divisionByZero
  /-- A weight, a share or a sum does not fit. -/
  | tooLarge : StopsAt c source method query above id .overflow

/-- The series below the first one lead to where the evaluation stops. All but the last are
compositions, met for the first time on the way down. -/
structure Trail (c : Catalogue) (source : Source) (method : Method) (query : Query)
    (path : List SeriesId) (id : SeriesId) (trail : List SeriesId) (cause : Error) : Prop where
  passes : (id :: trail).IsChain (c.PassesTo source method query)
  nodup : (id :: trail).dropLast.Nodup
  fresh : ∀ x ∈ (id :: trail).dropLast, x ∉ path
  stops : c.StopsAt source method query ((id :: trail).dropLast ++ path)
    ((id :: trail).getLast (List.cons_ne_nil id trail)) cause

section Stops
variable {above : List SeriesId} {id : SeriesId} {cause : Error}

theorem StopsAt.mono {above' : List SeriesId} (h : c.StopsAt source method query above id cause)
    (hsub : above ⊆ above') : c.StopsAt source method query above' id cause := by
  cases h with
  | cyclic hid => exact .cyclic (hsub hid)
  | unknown hd => exact .unknown hd
  | unreadable hd => exact .unreadable hd
  | primitive hd he => exact .primitive hd he
  | totalZero hd hzero => exact .totalZero hd hzero
  | tooLarge => exact .tooLarge

theorem StopsAt.ne_constituent (h : c.StopsAt source method query above id cause) (x : SeriesId)
    (e : Error) : cause ≠ .constituent x e := by
  cases h with
  | primitive _ he => exact (Primitive.failure_of_call he).ne_constituent x e
  | _ => nofun

theorem StopsAt.of_unknown {x : SeriesId}
    (h : c.StopsAt source method query above id (.unknownSeries x)) :
    x = id ∧ c.definition x = .ok none := by
  cases h with
  | unknown hd => exact ⟨rfl, hd⟩
  | primitive _ he => cases Primitive.failure_of_call he

theorem StopsAt.of_cyclic {x : SeriesId}
    (h : c.StopsAt source method query above id (.cyclicComposition x)) : x = id ∧ x ∈ above := by
  cases h with
  | cyclic hid => exact ⟨rfl, hid⟩
  | primitive _ he => cases Primitive.failure_of_call he

theorem StopsAt.of_divisionByZero
    (hbase : ∀ binding rows, source binding .base = .ok rows → ∀ row ∈ rows, row.value ≠ 0)
    (h : c.StopsAt source method query above id .divisionByZero) :
    ∃ comp, c.definition id = .ok (some (.composed comp)) ∧ comp.totalWeight = 0 := by
  cases h with
  | totalZero hd hzero => exact ⟨_, hd, hzero⟩
  | primitive _ he => exact absurd he (Primitive.call_ne_divisionByZero (hbase _))

theorem Trail.stop {path : List SeriesId} (h : c.StopsAt source method query path id cause) :
    c.Trail source method query path id [] cause :=
  ⟨.singleton id, .nil, nofun, h⟩

/-- The way down gets one series longer at its head. -/
theorem Trail.cons {path trail : List SeriesId} {k : SeriesId} (hid : id ∉ path)
    (hpasses : c.PassesTo source method query id k)
    (h : c.Trail source method query (id :: path) k trail cause) :
    c.Trail source method query path id (k :: trail) cause := by
  obtain ⟨hchain, hnodup, hfresh, hstops⟩ := h
  have hdrop : (id :: k :: trail).dropLast = id :: (k :: trail).dropLast := rfl
  refine ⟨.cons_cons hpasses hchain, ?_, ?_, ?_⟩
  · rw [hdrop, List.nodup_cons]
    exact ⟨fun hmem => hfresh id hmem List.mem_cons_self, hnodup⟩
  · rw [hdrop, List.forall_mem_cons]
    exact ⟨hid, fun x hx hpath => hfresh x hx (List.mem_cons_of_mem id hpath)⟩
  · rw [List.getLast_cons_cons, hdrop]
    apply hstops.mono
    intro x hx
    simpa [or_left_comm] using hx

end Stops

/-- By induction on the way down: a composition hands its failure to the first constituent that
fails, and everything else stops where it stands. -/
theorem exists_trail (path : List SeriesId) (id : SeriesId) {e : Error}
    (h : (c.evaluateBelow source method query path id).outcome = .error e) :
    ∃ trail cause, e = trail.foldr .constituent cause ∧
      c.Trail source method query path id trail cause := by
  induction path, id using below_induction c generalizing e with
  | step path id ih =>
  by_cases hid : id ∈ path
  · rw [evaluateBelow_of_mem hid] at h
    cases h
    exact ⟨[], _, rfl, .stop (.cyclic hid)⟩
  · cases hd : c.definition id with
    | error detail =>
      rw [evaluateBelow_of_not_mem hid, readDefinition, hd] at h
      cases h
      exact ⟨[], _, rfl, .stop (.unreadable hd)⟩
    | ok found =>
      rcases found with _ | binding | comp
      · rw [evaluateBelow_of_not_mem hid, readDefinition, hd] at h
        cases h
        exact ⟨[], _, rfl, .stop (.unknown hd)⟩
      · rw [evaluateBelow_of_primitive hid hd] at h
        exact ⟨[], e, rfl, .stop (.primitive hd h)⟩
      · rw [evaluateBelow_of_composed hid hd] at h
        rcases Composition.first_failure_of_combineWith h with
          rfl | ⟨rfl, hzero⟩ | ⟨before, k, after, hdivides, hsplit, hbefore, hk⟩
        · exact ⟨[], _, rfl, .stop .tooLarge⟩
        · exact ⟨[], _, rfl, .stop (.totalZero hd hzero)⟩
        · have hpasses := passesTo_of_supplies hd hdivides hsplit hbefore
          cases hk with
          | unweighted _ _ =>
            exact ⟨[k.id], _, rfl, .cons hid hpasses (.stop .tooLarge)⟩
          | unresolved hk =>
            obtain ⟨e', he', rfl⟩ := mapError_eq_error_iff.1 hk
            have hedge : c.HasConstituent id k.id := ⟨comp, hd, k, by simp [hsplit], rfl⟩
            obtain ⟨trail, cause, rfl, htrail⟩ := ih hid k.id hedge he'
            exact ⟨k.id :: trail, cause, rfl, htrail.cons hid hpasses⟩

/-- An error is a chain of tags around an untagged cause. The tags name a way down from the series
through compositions that are all different, on which each passes to the first of its constituents
that fails. An unknown series is the last one on it; so is a series that is made of itself, which
has been passed before; and with no zero among the rows for the base, a division by zero is the last
one's own total weight. -/
theorem evaluate_error (c : Catalogue) (source : Source) (id : SeriesId) (method : Method)
    (query : Query) {e : Error} (h : (c.evaluate source id method query).outcome = .error e) :
    ∃ trail cause, e = trail.foldr .constituent cause ∧ (∀ x inner, cause ≠ .constituent x inner) ∧
      let last := (id :: trail).getLast (List.cons_ne_nil id trail)
      let passed := (id :: trail).dropLast
      passed.Nodup ∧ (id :: trail).IsChain (c.PassesTo source method query) ∧
        (∀ x, cause = .unknownSeries x → x = last ∧ c.definition x = .ok none) ∧
        (∀ x, cause = .cyclicComposition x → x = last ∧ x ∈ passed) ∧
        ((∀ binding rows, source binding .base = .ok rows → ∀ row ∈ rows, row.value ≠ 0) →
          cause = .divisionByZero →
            ∃ comp, c.definition last = .ok (some (.composed comp)) ∧ comp.totalWeight = 0) := by
  obtain ⟨trail, cause, he, hpasses, hnodup, -, hstops⟩ := exists_trail [] id h
  rw [List.append_nil] at hstops
  refine ⟨trail, cause, he, hstops.ne_constituent, hnodup, hpasses, ?_, ?_, ?_⟩
  · rintro x rfl
    exact hstops.of_unknown
  · rintro x rfl
    exact hstops.of_cyclic
  · rintro hbase rfl
    exact hstops.of_divisionByZero hbase

/-- Wealth fails in trust after consumer prices have been weighted; trust fails in credit, which is
made of trust again. -/
theorem evaluate_error_economy :
    let c := economy.catalogue
    let source : Source := fun _ _ => .ok [⟨⟨⟨2024, 1, 31, by decide⟩, 1200⟩, "2024-02-01"⟩]
    let trail : List SeriesId := ["trust", "credit", "trust"]
    (c.evaluate source "wealth" .value .latest).outcome =
        .error (trail.foldr .constituent (.cyclicComposition "trust")) ∧
      c.PassesTo source .value .latest "wealth" "trust" ∧
      ("wealth" :: trail).dropLast = ["wealth", "trust", "credit"] ∧
      ("wealth" :: trail).dropLast.Nodup := by
  intro c source trail
  have herror : (c.evaluate source "wealth" .value .latest).outcome =
      .error (trail.foldr .constituent (.cyclicComposition "trust")) := by decide +kernel
  obtain ⟨trail', cause, he, hcause, hnodup, hpasses, -⟩ := evaluate_error c _ _ _ _ herror
  obtain ⟨rfl, rfl⟩ := (Error.foldr_constituent_inj (by nofun) hcause).1 he
  exact ⟨herror, (List.isChain_cons_cons.1 hpasses).1, rfl, hnodup⟩

end Catalogue
end TimeSeries
