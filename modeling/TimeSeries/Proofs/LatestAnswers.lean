import TimeSeries.Proofs.LaterRows

/-!
The latest value as a value of a day. Every constituent dates its latest value by its own last row,
and a composition by the latest of these days; from that day on nothing changes, so that asking for
any later day gives the same value.
-/
namespace TimeSeries

open Align (AgreesOn Shown carried?)

/-- Asked for any day from its own on, a series has the value of an observation. -/
def Observation.Lasts (o : Observation) (answer : Date → Except Error (List Observation)) : Prop :=
  ∀ day, o.date ≤ day → answer day = .ok [⟨day, o.value⟩]

namespace Align

@[simp] theorem carried?_singleton {o : Observation} {day : Date} :
    carried? day [o] = if o.date ≤ day then some o.value else none := by
  by_cases hday : o.date ≤ day
  · simp [carried?, lastValue?, hday, Greatest.last?, Greatest.later]
  · simp [carried?, lastValue?, hday]

theorem agreesOn_of_lasts {o : Observation} {answer : Date → Except Error (List Observation)}
    (h : o.Lasts answer) {day : Date} (hday : o.date ≤ day) : AgreesOn [o] day (answer day) := by
  simp [AgreesOn, hday, h day hday]

variable {series : List (List Observation)}

/-- Series of one observation each are shown on the latest of their dates alone. -/
theorem exists_shown_singletons (hne : series ≠ []) (hone : ∀ s ∈ series, ∃ o, s = [o]) :
    ∃ last, [last] ∈ series ∧ (∀ o, [o] ∈ series → o.date ≤ last.date) ∧
      ∀ day, Shown series day ↔ day = last.date := by
  obtain ⟨s₀, hs₀⟩ := List.exists_mem_of_ne_nil series hne
  obtain ⟨o₀, rfl⟩ := hone s₀ hs₀
  have hflat : Greatest.last? upTo series.flatten ≠ none := by
    rw [ne_eq, Greatest.last?_eq_none_iff]
    exact List.ne_nil_of_mem (List.mem_flatten.2 ⟨_, hs₀, List.mem_singleton_self o₀⟩)
  obtain ⟨last, hlast⟩ := Option.ne_none_iff_exists'.1 hflat
  have hmem : [last] ∈ series := by
    obtain ⟨s, hs, ho⟩ := List.mem_flatten.1 (Greatest.mem_of_last? hlast)
    obtain ⟨o, rfl⟩ := hone s hs
    rwa [List.mem_singleton.1 ho]
  have hbest (o : Observation) (ho : [o] ∈ series) : o.date ≤ last.date := by
    have ho := List.mem_flatten.2 ⟨_, ho, List.mem_singleton_self o⟩
    simpa [upTo] using Greatest.le_of_last? upTo_trans upTo_total hlast ho
  refine ⟨last, hmem, hbest, fun day => ⟨?_, ?_⟩⟩
  · rintro ⟨⟨s, hs, o, ho, rfl⟩, hstarted⟩
    obtain ⟨p, rfl⟩ := hone s hs
    obtain rfl := List.mem_singleton.1 ho
    obtain ⟨q, hq, hle⟩ := hstarted _ hmem
    obtain rfl := List.mem_singleton.1 hq
    exact Std.le_antisymm (hbest o hs) hle
  · rintro rfl
    refine ⟨⟨_, hmem, last, List.mem_singleton_self last, rfl⟩, fun s hs => ?_⟩
    obtain ⟨o, rfl⟩ := hone s hs
    exact ⟨o, List.mem_singleton_self o, hbest o hs⟩

end Align

/-- A total over a single date is a single row. -/
theorem IsTotal.exists_eq_singleton {dates : Date → Prop} {summands : Date → List Int}
    {rows : List Observation} (h : IsTotal dates summands rows) {day : Date}
    (hdates : ∀ d, dates d ↔ d = day) : ∃ v, rows = [⟨day, v⟩] := by
  have hday (o : Observation) (ho : o ∈ rows) : o.date = day :=
    (hdates _).1 ((h.mem_dates _).1 ⟨o, ho, rfl⟩)
  obtain ⟨⟨_, v⟩, ho, rfl⟩ := (h.mem_dates day).2 ((hdates day).2 rfl)
  refine ⟨v, ?_⟩
  match rows, h.ascending with
  | [o], _ => rw [List.mem_singleton.1 ho]
  | o :: p :: rest, hasc =>
    have hlt : o.date < p.date := (List.pairwise_cons.1 hasc).1 p List.mem_cons_self
    rw [hday o (by simp), hday p (by simp)] at hlt
    exact absurd hlt Std.lt_irrefl

namespace Composition

variable {ρ : Type} {c : Composition} {resolve : SeriesId → Traced ρ (List Observation)}

/-- A composition of single observations is a single observation, dated by the latest of them. -/
theorem combineWith_latest (hne : c.constituents ≠ []) {rows : List Observation}
    (h : (c.combineWith resolve).outcome = .ok rows)
    (hone : ∀ k ∈ c.constituents, ∀ s, (resolve k.id).outcome = .ok s → ∃ o, s = [o]) :
    ∃ o, rows = [o] ∧
      (∃ k ∈ c.constituents, ∃ p, (resolve k.id).outcome = .ok [p] ∧ p.date = o.date) ∧
      ∀ k ∈ c.constituents, ∃ p, (resolve k.id).outcome = .ok [p] ∧ p.date ≤ o.date := by
  obtain ⟨-, series, hs, htotal⟩ := exists_total_of_combineWith h
  have hsne : series ≠ [] := by
    rintro rfl
    exact hne (List.length_eq_zero_iff.1 hs.length_eq)
  have hsone : ∀ s ∈ series, ∃ o, s = [o] := by
    intro s hmem
    obtain ⟨k, hk, hsup⟩ := exists_of_forall₂_right hs hmem
    exact hone k hk s hsup.1
  obtain ⟨last, hlast, hbest, hshown⟩ := Align.exists_shown_singletons hsne hsone
  obtain ⟨v, rfl⟩ := htotal.exists_eq_singleton hshown
  refine ⟨⟨last.date, v⟩, rfl, ?_, fun k hk => ?_⟩
  · obtain ⟨k, hk, hsup⟩ := exists_of_forall₂_right hs hlast
    exact ⟨k, hk, last, hsup.1, rfl⟩
  · obtain ⟨s, hmem, hsup⟩ := exists_of_forall₂_left hs hk
    obtain ⟨p, rfl⟩ := hsone s hmem
    exact ⟨p, hsup.1, hbest p hmem⟩

end Composition

namespace Primitive

open Recorded (chronology)

variable {rows : List Recorded} {row : Recorded}

/-- The row created last on the latest date of all is the latest one up to any day from it on. -/
theorem pick?_onOrBefore_of_latest (hd : chronology.Distinct rows)
    (h : chronology.pick? rows .latest = some row) {day : Date} (hday : row.date ≤ day) :
    chronology.pick? rows (.onOrBefore day) = some row := by
  obtain ⟨⟨hrow, -⟩, hbest⟩ := (Chronology.pick?_eq_some_iff hd).1 h
  refine (Chronology.pick?_eq_some_iff hd).2 ⟨⟨hrow, Chronology.covers_onOrBefore.2 hday⟩, ?_⟩
  intro r hr _
  exact hbest r hr rfl

theorem date_le_of_latest (hd : chronology.Distinct rows)
    (h : chronology.pick? rows .latest = some row) {r : Recorded} (hr : r ∈ rows) :
    r.date ≤ row.date := by
  have hbest := ((Chronology.pick?_eq_some_iff hd).1 h).2 r hr rfl
  rcases Chronology.upTo_iff.1 hbest with hlt | ⟨heq, -⟩
  · exact Std.le_of_lt hlt
  · exact Std.le_of_eq heq

section Latest
variable {source : Source} {binding : Binding} (h : Answers source binding rows) {query : Query}
  (hquery : query.date = .latest)
include h hquery

theorem value_latest {found : List Observation}
    (hok : (value source binding query).outcome = .ok found) :
    ∃ row ∈ rows, found = [row.toObservation] ∧ (∀ r ∈ rows, r.date ≤ row.date) ∧
      row.toObservation.Lasts fun day => (value source binding (.on day)).outcome := by
  have hd := h.chronology_distinct
  have hresolution : query.resolution = .latest := by simp [Query.resolution, hquery]
  rw [outcome_value h, hresolution, nonempty_eq_ok_iff, observations] at hok
  obtain ⟨rfl, hne⟩ := hok
  cases hp : chronology.pick? rows .latest with
  | none => simp [hp] at hne
  | some row =>
    refine ⟨row, (Chronology.mem_of_pick? hp).1, rfl, fun r hr => ?_, ?_⟩
    · exact date_le_of_latest hd hp hr
    · intro day hday
      dsimp only
      rw [outcome_value_on h, valueOn?, pick?_onOrBefore_of_latest hd hp hday]
      rfl

/-- The base is that of every query, and on the later day it divides the same value. -/
theorem index_latest {found : List Observation}
    (hok : (index source binding query).outcome = .ok found) :
    ∃ row ∈ rows, ∃ o, found = [o] ∧ o.date = row.date ∧ (∀ r ∈ rows, r.date ≤ row.date) ∧
      o.Lasts fun day => (index source binding (.on day)).outcome := by
  obtain ⟨base, hbase⟩ := exists_base_of_index h hok
  rw [outcome_index_of_base h hbase, bind_eq_ok_iff] at hok
  obtain ⟨current, hcurrent, hok⟩ := hok
  obtain ⟨row, hrow, rfl, hlast, hlasts⟩ := value_latest h hquery hcurrent
  rw [if_neg (by simp), mapM_eq_ok_iff, List.forall₂_cons_left_iff] at hok
  obtain ⟨o, rest, ho, hrest, rfl⟩ := hok
  obtain rfl := List.forall₂_nil_left_iff.1 hrest
  obtain ⟨hdate, hfraction⟩ := relativeTo_eq_ok_iff.1 ho
  refine ⟨row, hrow, o, rfl, hdate, hlast, fun day hday => ?_⟩
  have hvalue := hlasts day (hdate ▸ hday)
  dsimp only at hvalue ⊢
  rw [outcome_index_of_base h hbase, hvalue, ok_bind, if_neg (by simp)]
  simp [relativeTo, hfraction]

theorem call_latest {method : Method} {found : List Observation}
    (hok : (call source binding method query).outcome = .ok found) :
    ∃ o, found = [o] ∧ (∃ row ∈ rows, row.date = o.date) ∧ (∀ row ∈ rows, row.date ≤ o.date) ∧
      o.Lasts fun day => (call source binding method (.on day)).outcome := by
  cases method with
  | value =>
    obtain ⟨row, hrow, rfl, hlast, hlasts⟩ := value_latest h hquery hok
    exact ⟨_, rfl, ⟨row, hrow, rfl⟩, hlast, hlasts⟩
  | index =>
    obtain ⟨row, hrow, o, rfl, hdate, hlast, hlasts⟩ := index_latest h hquery hok
    exact ⟨o, rfl, ⟨row, hrow, hdate.symm⟩, hdate ▸ hlast, hlasts⟩

end Latest
end Primitive

namespace Catalogue

variable {c : Catalogue} {tables : Binding → List Recorded} {id : SeriesId}

/-- The day is the last one that a table has a row for, of all the tables that are drawn on. -/
structure LastRecorded (c : Catalogue) (tables : Binding → List Recorded) (id : SeriesId)
    (day : Date) : Prop where
  exists_row : ∃ binding, c.Draws id binding ∧ ∃ row ∈ tables binding, row.date = day
  date_le : ∀ binding, c.Draws id binding → ∀ row ∈ tables binding, row.date ≤ day

theorem lastRecorded_of_primitive {binding : Binding}
    (hd : c.definition id = .ok (some (.primitive binding))) {day : Date} :
    c.LastRecorded tables id day ↔
      (∃ row ∈ tables binding, row.date = day) ∧ ∀ row ∈ tables binding, row.date ≤ day := by
  have hdraws (binding' : Binding) : c.Draws id binding' ↔ binding' = binding :=
    draws_of_primitive hd
  constructor
  · rintro ⟨⟨binding', hb, hrow⟩, hle⟩
    obtain rfl := (hdraws _).1 hb
    exact ⟨hrow, hle _ hb⟩
  · rintro ⟨hrow, hle⟩
    refine ⟨⟨binding, (hdraws _).2 rfl, hrow⟩, fun binding' hb => ?_⟩
    rwa [(hdraws _).1 hb]

/-- The last day of a composition is the latest of the last days of its constituents. -/
theorem lastRecorded_of_composed {comp : Composition}
    (hd : c.definition id = .ok (some (.composed comp))) {day : Date}
    (hlast : ∃ k ∈ comp.constituents, c.LastRecorded tables k.id day)
    (hle : ∀ k ∈ comp.constituents, ∃ d, c.LastRecorded tables k.id d ∧ d ≤ day) :
    c.LastRecorded tables id day := by
  constructor
  · obtain ⟨k, hk, ⟨binding, hb, hrow⟩, -⟩ := hlast
    exact ⟨binding, (draws_of_composed hd).2 ⟨k, hk, hb⟩, hrow⟩
  · intro binding hb row hrow
    obtain ⟨k, hk, hb⟩ := (draws_of_composed hd).1 hb
    obtain ⟨d, hrecorded, hday⟩ := hle k hk
    exact Std.le_trans (hrecorded.date_le binding hb row hrow) hday

section Evaluation
variable {source : Source} {method : Method} {query : Query}
  (hprimitive : ∀ id binding, c.definition id = .ok (some (.primitive binding)) →
    Answers source binding (tables binding))
  (hcomposed : ∀ id comp, c.definition id = .ok (some (.composed comp)) → comp.constituents ≠ [])
  (hquery : query.date = .latest)
include hprimitive hcomposed hquery

/-- By induction on the way down: a table at every end of it has its latest row, and every
composition on it is dated by the latest one of its constituents. -/
theorem evaluateBelow_latest (path : List SeriesId) (id : SeriesId) {rows : List Observation}
    (h : (c.evaluateBelow source method query path id).outcome = .ok rows) :
    ∃ o, rows = [o] ∧ c.LastRecorded tables id o.date ∧
      o.Lasts fun day => (c.evaluateBelow source method (.on day) path id).outcome := by
  induction path, id using below_induction c generalizing rows with
  | step path id ih =>
  obtain ⟨hid, series, hd, hanswer⟩ := exists_answer_of_ok h
  cases series with
  | primitive binding =>
    obtain ⟨o, rfl, hrow, hle, hlasts⟩ :=
      Primitive.call_latest (hprimitive id binding hd) hquery hanswer
    refine ⟨o, rfl, (lastRecorded_of_primitive hd).2 ⟨hrow, hle⟩, fun day hday => ?_⟩
    dsimp only
    rw [evaluateBelow_of_primitive hid hd]
    exact hlasts day hday
  | composed comp =>
    have hbelow (k : Constituent) (hk : k ∈ comp.constituents) (s : List Observation)
        (hs : (c.resolveBelow source method query (id :: path) k.id).outcome = .ok s) :
        ∃ o, s = [o] ∧ c.LastRecorded tables k.id o.date ∧ o.Lasts fun day =>
          (c.evaluateBelow source method (.on day) (id :: path) k.id).outcome :=
      ih hid k.id ⟨comp, hd, k, hk, rfl⟩ (mapError_eq_ok_iff.1 hs)
    obtain ⟨o, rfl, ⟨k₀, hk₀, p₀, hp₀, hdate₀⟩, hle⟩ :=
      Composition.combineWith_latest (hcomposed id comp hd) hanswer
        fun k hk s hs => (hbelow k hk s hs).imp fun _ => And.left
    refine ⟨o, rfl, ?_, fun day hday => ?_⟩
    · apply lastRecorded_of_composed hd
      · obtain ⟨_, hp, hrecorded, -⟩ := hbelow k₀ hk₀ _ hp₀
        cases hp
        exact ⟨k₀, hk₀, hdate₀ ▸ hrecorded⟩
      · intro k hk
        obtain ⟨p, hp, hpday⟩ := hle k hk
        obtain ⟨_, heq, hrecorded, -⟩ := hbelow k hk _ hp
        cases heq
        exact ⟨p.date, hrecorded, hpday⟩
    · have hagrees : AgreesOn [o] day
          (comp.combineWith (c.resolveBelow source method (.on day) (id :: path))).outcome := by
        apply Composition.combineWith_agreesOn (hcomposed id comp hd) hanswer
        intro k hk s hs
        obtain ⟨p, rfl, -, hlasts⟩ := hbelow k hk s hs
        obtain ⟨q, hq, hqdate⟩ := hle k hk
        obtain rfl : p = q := by simpa using hs.symm.trans hq
        have hpday : p.date ≤ day := Std.le_trans hqdate hday
        exact (Align.agreesOn_of_lasts hlasts hpday).mapError k.id
      rw [AgreesOn, Align.carried?_singleton, if_pos hday] at hagrees
      dsimp only
      rw [evaluateBelow_of_composed hid hd]
      exact hagrees

end Evaluation

/-- The latest answer is one observation. It is dated by the last row of all the tables that are
drawn on, and every day from then on has its value. -/
theorem evaluate_latest {r : Registry} {source : Source} {tables : Binding → List Recorded}
    (hprimitive : ∀ id binding, r.find? id = some (.primitive binding) →
      Answers source binding (tables binding))
    (hcomposed : ∀ id comp, r.find? id = some (.composed comp) →
      ∃ weights, Composition.ofWeights weights = .ok comp)
    {id : SeriesId} {method : Method} {query : Query} (hquery : query.date = .latest)
    {rows : List Observation}
    (h : (r.catalogue.evaluate source id method query).outcome = .ok rows) :
    ∃ o, rows = [o] ∧
      (∃ binding, r.catalogue.Draws id binding ∧ ∃ row ∈ tables binding, row.date = o.date) ∧
      (∀ binding, r.catalogue.Draws id binding → ∀ row ∈ tables binding, row.date ≤ o.date) ∧
      ∀ day, o.date ≤ day →
        (r.catalogue.evaluate source id method (.on day)).outcome = .ok [⟨day, o.value⟩] := by
  have hprimitive' : ∀ id binding, r.catalogue.definition id = .ok (some (.primitive binding)) →
      Answers source binding (tables binding) :=
    fun id binding hd => hprimitive id binding (Except.ok.inj hd)
  have hcomposed' : ∀ id comp, r.catalogue.definition id = .ok (some (.composed comp)) →
      comp.constituents ≠ [] := by
    intro id comp hd
    obtain ⟨weights, hweights⟩ := hcomposed id comp (Except.ok.inj hd)
    exact Composition.constituents_ne_nil_of_ofWeights hweights
  obtain ⟨o, rfl, hrecorded, hlasts⟩ :=
    evaluateBelow_latest hprimitive' hcomposed' hquery [] id h
  exact ⟨o, rfl, hrecorded.exists_row, hrecorded.date_le, hlasts⟩

/-- The latest prices are dated by the food, and rest on a rent that was recorded weeks before. -/
theorem evaluate_latest_household :
    let source := Source.ofTables householdTables
    let latest := (household.catalogue.evaluate source "prices" .value .latest).outcome
    let march : Date := ⟨2024, 3, 1, by decide⟩
    (∀ id binding, household.find? id = some (.primitive binding) →
        Answers source binding (householdTables binding)) ∧
      (∀ id comp, household.find? id = some (.composed comp) →
        ∃ weights, Composition.ofWeights weights = .ok comp) ∧
      latest = .ok [⟨⟨2024, 1, 5, by decide⟩, 4250⟩] ∧
      (household.catalogue.evaluate source "prices" .value (.on march)).outcome =
        .ok [⟨march, 4250⟩] := by
  intro source latest march
  have hprimitive : ∀ id binding, household.find? id = some (.primitive binding) →
      Answers source binding (householdTables binding) := by
    intro id binding _
    apply Source.answers_ofTables
    rw [householdTables]
    split <;> decide
  have hcomposed : ∀ id comp, household.find? id = some (.composed comp) →
      ∃ weights, Composition.ofWeights weights = .ok comp := by
    intro id comp h
    have hbuilt : ∀ entry ∈ household.toList, entry.2 = .primitive (.standard entry.1) ∨
        ∃ weights ∈ [[("rent", 3), ("food", 1)], [("housing", 1), ("food", 1)]],
          (Composition.ofWeights weights).map Series.composed = .ok entry.2 := by decide
    rcases hbuilt _ (SortedMap.find?_eq_some_iff.1 h) with hprimitive | ⟨weights, -, hweights⟩
    · cases hprimitive
    · obtain ⟨comp', hcomp', heq⟩ := map_eq_ok_iff.1 hweights
      cases heq
      exact ⟨weights, hcomp'⟩
  have hlatest : latest = .ok [⟨⟨2024, 1, 5, by decide⟩, 4250⟩] := by decide +kernel
  obtain ⟨o, ho, -, -, hlater⟩ := evaluate_latest hprimitive hcomposed rfl hlatest
  obtain rfl := List.singleton_inj.1 ho
  exact ⟨hprimitive, hcomposed, hlatest, hlater march (by decide)⟩

end Catalogue
end TimeSeries
