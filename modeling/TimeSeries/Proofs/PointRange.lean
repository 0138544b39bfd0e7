import TimeSeries.Proofs.PrimitiveAnswers
import TimeSeries.Proofs.Reachability

/-!
A range of days against its days one by one: the answer for a day is the value that the answer for
the range has on it, through compositions of any depth.
-/
namespace TimeSeries

open Align (AgreesOn Shown carried?)

namespace Align

variable {series : List (List Observation)} {day : Date}

/-- Once every series has started there is a latest date shown, and no value changes after it. -/
theorem exists_last_shown (hne : series ≠ []) (h : ∀ s ∈ series, ∃ o ∈ s, o.date ≤ day) :
    ∃ d, d ≤ day ∧ Shown series d ∧ (∀ d', Shown series d' → d' ≤ day → d' ≤ d) ∧
      ∀ s ∈ series, carried? d s = carried? day s := by
  obtain ⟨s₀, hs₀⟩ := List.exists_mem_of_ne_nil series hne
  obtain ⟨o₀, ho₀, hday₀⟩ := h s₀ hs₀
  have hne' : Greatest.last? upTo (series.flatten.filter fun o => decide (o.date ≤ day)) ≠ none := by
    rw [ne_eq, Greatest.last?_eq_none_iff, List.filter_eq_nil_iff]
    intro hnone
    exact hnone o₀ (List.mem_flatten.2 ⟨s₀, hs₀, ho₀⟩) (by simpa using hday₀)
  obtain ⟨o, ho⟩ := Option.ne_none_iff_exists'.1 hne'
  obtain ⟨hmem, hday⟩ := List.mem_filter.1 (Greatest.mem_of_last? ho)
  have hbest (s : List Observation) (hs : s ∈ series) (p : Observation) (hp : p ∈ s)
      (hpday : p.date ≤ day) : p.date ≤ o.date := by
    have hfilter : p ∈ series.flatten.filter fun o => decide (o.date ≤ day) :=
      List.mem_filter.2 ⟨List.mem_flatten.2 ⟨s, hs, hp⟩, by simpa using hpday⟩
    simpa [upTo] using Greatest.le_of_last? upTo_trans upTo_total ho hfilter
  rw [decide_eq_true_eq] at hday
  refine ⟨o.date, hday, ⟨?_, ?_⟩, ?_, ?_⟩
  · obtain ⟨s, hs, ho⟩ := List.mem_flatten.1 hmem
    exact ⟨s, hs, o, ho, rfl⟩
  · intro s hs
    obtain ⟨p, hp, hpday⟩ := h s hs
    exact ⟨p, hp, hbest s hs p hp hpday⟩
  · rintro d' ⟨⟨s, hs, p, hp, rfl⟩, -⟩ hle
    exact hbest s hs p hp hle
  · intro s hs
    apply lastValue?_congr
    intro p hp
    by_cases hpday : p.date ≤ day
    · simp [hpday, hbest s hs p hp hpday]
    · have : ¬ p.date ≤ o.date := fun hle => hpday (Std.le_trans hle hday)
      simp [hpday, this]

/-- A series cut down to its value on a day. -/
def pointOn (day : Date) (s : List Observation) : List Observation :=
  (carried? day s).toList.map (⟨day, ·⟩)

@[simp] theorem carried?_pointOn (day : Date) (s : List Observation) :
    carried? day (pointOn day s) = carried? day s := by
  rw [pointOn]
  cases carried? day s with
  | none => rfl
  | some v => simp [carried?, lastValue?, Std.le_refl, Greatest.last?, Greatest.later]

/-- Series that have started by a day, cut down to it, are shown on the day alone. -/
theorem shown_pointOn (hne : series ≠ []) (h : ∀ s ∈ series, ∃ o ∈ s, o.date ≤ day) {d : Date} :
    Shown (series.map (pointOn day)) d ↔ d = day := by
  have hpoint (s : List Observation) (hs : s ∈ series) : ∃ v, pointOn day s = [⟨day, v⟩] := by
    obtain ⟨v, hv⟩ := Option.isSome_iff_exists.1 (carried?_isSome_iff.2 (h s hs))
    exact ⟨v, by simp [pointOn, hv]⟩
  constructor
  · rintro ⟨⟨p, hp, o, ho, rfl⟩, -⟩
    obtain ⟨s, hs, rfl⟩ := List.mem_map.1 hp
    obtain ⟨v, hv⟩ := hpoint s hs
    rw [hv, List.mem_singleton] at ho
    rw [ho]
  · rintro rfl
    obtain ⟨s₀, hs₀⟩ := List.exists_mem_of_ne_nil series hne
    obtain ⟨v₀, hv₀⟩ := hpoint s₀ hs₀
    refine ⟨⟨_, List.mem_map_of_mem hs₀, ⟨d, v₀⟩, by simp [hv₀], rfl⟩, ?_⟩
    intro p hp
    obtain ⟨s, hs, rfl⟩ := List.mem_map.1 hp
    obtain ⟨v, hv⟩ := hpoint s hs
    exact ⟨⟨d, v⟩, by simp [hv], Std.le_refl _⟩

end Align

/-- A pointwise total has the value of a day exactly if all its series do: the total of the latest
date shown. -/
theorem IsTotal.exists_carried {series : List (List Observation)} {summands : Date → List Int}
    {rows : List Observation} {day : Date} (h : IsTotal (Shown series) summands rows)
    (hne : series ≠ []) (hstarted : ∀ s ∈ series, ∃ o ∈ s, o.date ≤ day) :
    ∃ d v, (∀ s ∈ series, carried? d s = carried? day s) ∧ carried? day rows = some v ∧
      Composition.SumsFit (summands d) ∧ v.toInt = (summands d).sum := by
  obtain ⟨d, hday, hshown, hlast, hcarried⟩ := Align.exists_last_shown hne hstarted
  obtain ⟨o, ho, rfl⟩ := (h.mem_dates d).2 hshown
  refine ⟨o.date, o.value, hcarried, ?_, h.fit o ho, h.value_eq o ho⟩
  rw [Align.carried?_eq_some_iff_of_ascending h.ascending]
  refine ⟨o, ho, hday, rfl, fun p hp hpday => hlast p.date ?_ hpday⟩
  exact (h.mem_dates p.date).1 ⟨p, hp, rfl⟩

theorem IsTotal.carried?_eq_none {series : List (List Observation)} {summands : Date → List Int}
    {rows : List Observation} {day : Date} (h : IsTotal (Shown series) summands rows)
    {s : List Observation} (hs : s ∈ series) (hlate : carried? day s = none) :
    carried? day rows = none := by
  rw [carried?, Align.lastValue?_eq_none_iff] at *
  intro o ho
  obtain ⟨p, hp, hdate⟩ := ((h.mem_dates o.date).1 ⟨o, ho, rfl⟩).2 s hs
  have hpday : ¬ p.date ≤ day := by simpa using hlate p hp
  simpa using fun hle => hpday (Std.le_trans hdate hle)

namespace Composition

variable {ρ : Type} {c : Composition} {resolve resolve' : SeriesId → Traced ρ (List Observation)}
  {day : Date} {rows : List Observation}

/-- A composition answers only from constituents that all supply their series. -/
theorem exists_total_of_combineWith (h : (c.combineWith resolve).outcome = .ok rows) :
    c.Divides ∧ ∃ series, List.Forall₂ (c.Supplies resolve) c.constituents series ∧
      IsTotal (Shown series) (c.sharesOn series) rows := by
  obtain ⟨x, hx⟩ := exists_combines c resolve
  rw [combineWith_eq_of_combines hx] at h
  cases hx with
  | total hc hs htotal =>
    cases h
    exact ⟨hc, _, hs, htotal⟩
  | _ => cases h

theorem sharesOn_congr {series series' : List (List Observation)} {d d' : Date}
    (h : series.map (carried? d) = series'.map (carried? d')) :
    c.sharesOn series d = c.sharesOn series' d' := by
  have key (series : List (List Observation)) (d : Date) : c.sharesOn series d =
      List.zipWith (fun k v? => (v?.map (share · k.weight c.totalWeight)).getD 0)
        c.constituents (series.map (carried? d)) := by
    rw [sharesOn, List.zipWith_map_right]
  rw [key, key, h]

theorem CanWeigh.pointOn {k : Constituent} {s : List Observation} (h : c.CanWeigh k s)
    (day : Date) : c.CanWeigh k (Align.pointOn day s) := by
  refine ⟨h.1, fun o ho => ?_⟩
  obtain ⟨v, hv, rfl⟩ := List.mem_map.1 ho
  obtain ⟨p, hp, -, rfl⟩ := Align.mem_of_lastValue? (Option.mem_toList.1 hv)
  exact h.2 p hp

theorem Supplies.pointOn {k : Constituent} {s : List Observation} (h : c.Supplies resolve k s)
    (hagrees : AgreesOn s day (resolve' k.id).outcome) (hsome : (carried? day s).isSome) :
    c.Supplies resolve' k (Align.pointOn day s) := by
  obtain ⟨v, hv⟩ := Option.isSome_iff_exists.1 hsome
  rw [AgreesOn, hv] at hagrees
  refine ⟨?_, h.2.pointOn day⟩
  rw [hagrees, Align.pointOn, hv]
  rfl

section Agreeing
variable {series : List (List Observation)} (hc : c.Divides)
  (hs : List.Forall₂ (c.Supplies resolve) c.constituents series)
  (htotal : IsTotal (Shown series) (c.sharesOn series) rows)
  (hpoint : ∀ k ∈ c.constituents, ∀ s, c.Supplies resolve k s →
    AgreesOn s day (resolve' k.id).outcome)
include hc hs htotal hpoint

/-- Constituents that all have a value on the day supply their points, and these have the total of
the last date that is shown up to the day. -/
theorem combineWith_agreesOn_of_started (hne : series ≠ [])
    (hstarted : ∀ s ∈ series, ∃ o ∈ s, o.date ≤ day) :
    AgreesOn rows day (c.combineWith resolve').outcome := by
  obtain ⟨d, v, hcarried, hrows, hfit, hsum⟩ := htotal.exists_carried hne hstarted
  have hshares : c.sharesOn (series.map (Align.pointOn day)) day = c.sharesOn series d := by
    apply sharesOn_congr
    rw [List.map_map]
    apply List.map_congr_left
    intro s hs
    rw [Function.comp, Align.carried?_pointOn, hcarried s hs]
  have hsupplies : List.Forall₂ (c.Supplies resolve') c.constituents
      (series.map (Align.pointOn day)) := by
    rw [List.forall₂_map_right_iff]
    apply forall₂_imp_of_mem hs
    intro k hk s hs hsup
    exact hsup.pointOn (hpoint k hk s hsup) (Align.carried?_isSome_iff.2 (hstarted s hs))
  have htotal' : IsTotal (Shown (series.map (Align.pointOn day)))
      (c.sharesOn (series.map (Align.pointOn day))) [⟨day, v⟩] := by
    refine ⟨List.pairwise_singleton _ _, fun d' => ?_, ?_, ?_⟩
    · rw [Align.shown_pointOn hne hstarted]
      simp [eq_comm]
    · intro o ho
      obtain rfl := List.mem_singleton.1 ho
      exact hshares ▸ hfit
    · intro o ho
      obtain rfl := List.mem_singleton.1 ho
      exact hshares ▸ hsum
  rw [AgreesOn, hrows]
  exact ((combineWith_of_supplies hc hsupplies).2.1 _).2 htotal'

/-- A constituent without a value on the day has no data, and the first such one is reported. -/
theorem combineWith_agreesOn_of_late {s₀ : List Observation} (hs₀ : s₀ ∈ series)
    (hlate : carried? day s₀ = none) : AgreesOn rows day (c.combineWith resolve').outcome := by
  have hone (k : Constituent) (hk : k ∈ c.constituents) : (∃ s, c.Supplies resolve' k s) ∨
      ∃ e, (resolve' k.id).outcome = .error e ∧ e.innermost = .noDataFound := by
    obtain ⟨s, -, hsup⟩ := exists_of_forall₂_left hs hk
    have hk := hpoint k hk s hsup
    by_cases hsome : (carried? day s).isSome
    · exact .inl ⟨_, hsup.pointOn hk hsome⟩
    · rw [Option.not_isSome_iff_eq_none] at hsome
      rw [AgreesOn, hsome] at hk
      exact .inr hk
  rw [AgreesOn, htotal.carried?_eq_none hs₀ hlate]
  rcases forall_or_first hone with hall | ⟨before, k, after, hsplit, hbefore, e, he, hinner⟩
  · obtain ⟨k₀, hk₀, hsup₀⟩ := exists_of_forall₂_right hs hs₀
    obtain ⟨s, hs, -⟩ := hall k₀ hk₀
    have hk₀ := hpoint k₀ hk₀ s₀ hsup₀
    rw [AgreesOn, hlate] at hk₀
    obtain ⟨e, he, -⟩ := hk₀
    rw [hs] at he
    cases he
  · rw [combineWith_eq_of_combines (.fails hc hsplit hbefore (.unresolved he))]
    exact ⟨e, rfl, hinner⟩

end Agreeing

/-- If the constituents agree with a day, so does their composition. -/
theorem combineWith_agreesOn (hne : c.constituents ≠ [])
    (h : (c.combineWith resolve).outcome = .ok rows)
    (hagrees : ∀ k ∈ c.constituents, ∀ s, (resolve k.id).outcome = .ok s →
      AgreesOn s day (resolve' k.id).outcome) :
    AgreesOn rows day (c.combineWith resolve').outcome := by
  obtain ⟨hc, series, hs, htotal⟩ := exists_total_of_combineWith h
  have hsne : series ≠ [] := by
    rintro rfl
    exact hne (List.length_eq_zero_iff.1 hs.length_eq)
  have hpoint (k : Constituent) (hk : k ∈ c.constituents) (s : List Observation)
      (hsup : c.Supplies resolve k s) : AgreesOn s day (resolve' k.id).outcome :=
    hagrees k hk s hsup.1
  by_cases hstarted : ∀ s ∈ series, ∃ o ∈ s, o.date ≤ day
  · exact combineWith_agreesOn_of_started hc hs htotal hpoint hsne hstarted
  · push Not at hstarted
    obtain ⟨s₀, hs₀, hlate⟩ := hstarted
    have hnone : carried? day s₀ = none := by
      rw [carried?, Align.lastValue?_eq_none_iff]
      simpa [Std.not_le] using hlate
    exact combineWith_agreesOn_of_late hc hs htotal hpoint hs₀ hnone

/-- A composition that is built from weights has a constituent. -/
theorem constituents_ne_nil_of_ofWeights {weights : List (SeriesId × Value)}
    (h : ofWeights weights = .ok c) : c.constituents ≠ [] := by
  rw [ofWeights] at h
  dsimp only at h
  split at h
  · cases h
  · cases h
  · next _ hne =>
    obtain ⟨total, -, hc⟩ := bind_eq_ok_iff.1 h
    cases hc
    simpa using hne

end Composition

namespace Catalogue

section Evaluation
variable {c : Catalogue} {source : Source} {method : Method} {first last day : Date}
  (hprimitive : ∀ id binding, c.definition id = .ok (some (.primitive binding)) →
    ∃ rows, Answers source binding rows)
  (hcomposed : ∀ id comp, c.definition id = .ok (some (.composed comp)) → comp.constituents ≠ [])
include hprimitive hcomposed

/-- By induction on the way down, with a table at every end of it. -/
theorem evaluateBelow_agreesOn (hfirst : first ≤ day) (hlast : day ≤ last) (path : List SeriesId)
    (id : SeriesId) {rows : List Observation}
    (h : (c.evaluateBelow source method ⟨.on first, some last⟩ path id).outcome = .ok rows) :
    rows.Pairwise (·.date < ·.date) ∧
      AgreesOn rows day (c.evaluateBelow source method (.on day) path id).outcome := by
  induction path, id using below_induction c generalizing rows with
  | step path id ih =>
  by_cases hid : id ∈ path
  · rw [evaluateBelow_of_mem hid] at h
    cases h
  · cases hd : (c.readDefinition id).outcome with
    | error e =>
      rw [evaluateBelow_of_not_mem hid, Traced.bind_of_error hd] at h
      cases h
    | ok series =>
      have hd := definition_of_readDefinition hd
      cases series with
      | primitive binding =>
        obtain ⟨table, htable⟩ := hprimitive id binding hd
        rw [evaluateBelow_of_primitive hid hd] at h ⊢
        exact Primitive.call_agreesOn htable h hfirst hlast
      | composed comp =>
        rw [evaluateBelow_of_composed hid hd] at h ⊢
        obtain ⟨-, series, -, htotal⟩ := Composition.exists_total_of_combineWith h
        refine ⟨htotal.ascending, ?_⟩
        apply Composition.combineWith_agreesOn (hcomposed id comp hd) h
        intro k hk s hs
        have hedge : c.HasConstituent id k.id := ⟨comp, hd, k, hk, rfl⟩
        have hbelow := ih hid k.id hedge (mapError_eq_ok_iff.1 hs)
        exact hbelow.2.mapError k.id

end Evaluation

/-- Evaluating a day gives the value of the last row up to the day in any range around it, and no
data if there is no such row. The definitions are built from weights, and every table is looked up
as documented. -/
theorem evaluate_on_of_range {r : Registry} {source : Source}
    (hprimitive : ∀ id binding, r.find? id = some (.primitive binding) →
      ∃ rows, Answers source binding rows)
    (hcomposed : ∀ id comp, r.find? id = some (.composed comp) →
      ∃ weights, Composition.ofWeights weights = .ok comp)
    {id : SeriesId} {method : Method} {first last : Date} {rows : List Observation}
    (h : (r.catalogue.evaluate source id method ⟨.on first, some last⟩).outcome = .ok rows)
    {day : Date} (hfirst : first ≤ day) (hlast : day ≤ last) :
    let answer := (r.catalogue.evaluate source id method (.on day)).outcome
    match (rows.filter fun o => decide (o.date ≤ day)).getLast? with
    | some o => answer = .ok [⟨day, o.value⟩]
    | none => ∃ e, answer = .error e ∧ e.innermost = .noDataFound := by
  have hprimitive' : ∀ id binding, r.catalogue.definition id = .ok (some (.primitive binding)) →
      ∃ rows, Answers source binding rows :=
    fun id binding hd => hprimitive id binding (Except.ok.inj hd)
  have hcomposed' : ∀ id comp, r.catalogue.definition id = .ok (some (.composed comp)) →
      comp.constituents ≠ [] := by
    intro id comp hd
    obtain ⟨weights, hweights⟩ := hcomposed id comp (Except.ok.inj hd)
    exact Composition.constituents_ne_nil_of_ofWeights hweights
  obtain ⟨hasc, hagrees⟩ :=
    evaluateBelow_agreesOn hprimitive' hcomposed' hfirst hlast [] id h
  rw [AgreesOn, Align.carried?_eq_getLast? hasc] at hagrees
  dsimp only
  cases hl : (rows.filter fun o => decide (o.date ≤ day)).getLast? with
  | none => rwa [hl] at hagrees
  | some o => rwa [hl] at hagrees

/-- Prices made up of food and housing, which has a share of food in it. -/
def household : Registry := .ofList
  [("food", .primitive (.standard "food")), ("rent", .primitive (.standard "rent")),
    ("housing", .composed ⟨[⟨"food", 1⟩, ⟨"rent", 3⟩], 4⟩),
    ("prices", .composed ⟨[⟨"food", 1⟩, ⟨"housing", 1⟩], 2⟩)]

/-- Food is recorded late, and once again for the same day; rent is recorded once. -/
def householdTables (binding : Binding) : List Recorded :=
  if binding.table = "food" then
    [⟨⟨⟨2024, 1, 3, by decide⟩, 1600⟩, "2024-01-03T09"⟩,
      ⟨⟨⟨2024, 1, 5, by decide⟩, 2000⟩, "2024-01-05T09"⟩,
      ⟨⟨⟨2024, 1, 3, by decide⟩, 1200⟩, "2024-01-04T09"⟩]
  else [⟨⟨⟨2023, 12, 1, by decide⟩, 8000⟩, "2023-12-01T09"⟩]

theorem evaluate_on_of_range_household :
    let source := Source.ofTables householdTables
    let query : Query := ⟨.on ⟨2024, 1, 2, by decide⟩, some ⟨2024, 1, 6, by decide⟩⟩
    (∀ id binding, household.find? id = some (.primitive binding) →
        ∃ rows, Answers source binding rows) ∧
      (∀ id comp, household.find? id = some (.composed comp) →
        ∃ weights, Composition.ofWeights weights = .ok comp) ∧
      (household.catalogue.evaluate source "prices" .value query).outcome =
        .ok [⟨⟨2024, 1, 3, by decide⟩, 3750⟩, ⟨⟨2024, 1, 5, by decide⟩, 4250⟩] ∧
      (household.catalogue.evaluate source "prices" .value (.on ⟨2024, 1, 4, by decide⟩)).outcome =
        .ok [⟨⟨2024, 1, 4, by decide⟩, 3750⟩] := by
  intro source query
  have hprimitive : ∀ id binding, household.find? id = some (.primitive binding) →
      ∃ rows, Answers source binding rows := by
    intro id binding _
    refine ⟨_, Source.answers_ofTables ?_⟩
    rw [householdTables]
    split <;> decide
  have hcomposed : ∀ id comp, household.find? id = some (.composed comp) →
      ∃ weights, Composition.ofWeights weights = .ok comp := by
    intro id comp h
    have hmem := SortedMap.find?_eq_some_iff.1 h
    have hlist : household.toList = [("food", .primitive (.standard "food")),
        ("housing", .composed ⟨[⟨"food", 1⟩, ⟨"rent", 3⟩], 4⟩),
        ("prices", .composed ⟨[⟨"food", 1⟩, ⟨"housing", 1⟩], 2⟩),
        ("rent", .primitive (.standard "rent"))] := by decide
    rw [hlist] at hmem
    simp only [List.mem_cons, Prod.mk.injEq, Series.composed.injEq, reduceCtorEq, and_false,
      List.not_mem_nil, or_false, false_or] at hmem
    rcases hmem with ⟨-, rfl⟩ | ⟨-, rfl⟩
    · exact ⟨[("rent", 3), ("food", 1)], by decide⟩
    · exact ⟨[("housing", 1), ("food", 1)], by decide⟩
  have hrange : (household.catalogue.evaluate source "prices" .value query).outcome =
      .ok [⟨⟨2024, 1, 3, by decide⟩, 3750⟩, ⟨⟨2024, 1, 5, by decide⟩, 4250⟩] := by
    decide +kernel
  have hfirst : (⟨2024, 1, 2, by decide⟩ : Date) ≤ ⟨2024, 1, 4, by decide⟩ := by decide
  have hlast : (⟨2024, 1, 4, by decide⟩ : Date) ≤ ⟨2024, 1, 6, by decide⟩ := by decide
  exact ⟨hprimitive, hcomposed, hrange,
    evaluate_on_of_range hprimitive hcomposed hrange hfirst hlast⟩

end Catalogue

end TimeSeries
