import TimeSeries.Proofs.Cycles
import TimeSeries.Proofs.Dependence

/-!
What is recorded for later days. The days of a query bound the rows that count for its answer, the
base of an index aside. That base is the earliest one there is, so that a base within the bound
stays the base; with no base within the bound the rows that count are all zero, whatever base they
are related to.
-/
namespace TimeSeries

/-- The tables have the same rows dated up to a day. -/
def Recorded.SameUpTo (last : Date) (rows rows' : List Recorded) : Prop :=
  ∀ row, row.date ≤ last → (row ∈ rows ↔ row ∈ rows')

theorem Recorded.sameUpTo_append {last : Date} (rows : List Recorded) {later : List Recorded}
    (h : ∀ row ∈ later, last < row.date) : Recorded.SameUpTo last rows (rows ++ later) := by
  intro row hrow
  have hnot : row ∉ later := fun hlater => Std.not_le.2 (h row hlater) hrow
  simp [hnot]

namespace Primitive

open Recorded (chronology)

/-! ## Tables with the same rows up to a day -/

section Observations
variable {rows rows' : List Recorded} {last : Date} (h : chronology.Distinct rows)
  (h' : chronology.Distinct rows') (hsame : Recorded.SameUpTo last rows rows')
include h h' hsame

theorem valueOn?_congr {day : Date} (hday : day ≤ last) :
    valueOn? rows day = valueOn? rows' day := by
  have hpick : chronology.pick? rows (.onOrBefore day) =
      chronology.pick? rows' (.onOrBefore day) := by
    apply Chronology.pick?_congr h h'
    intro row hrow
    exact hsame row (Std.le_trans (Chronology.covers_onOrBefore.1 hrow) hday)
  rw [valueOn?, valueOn?, hpick]

theorem history_congr {first ending : Date} (hfirst : first ≤ last)
    (hending : ending ≤ last) : history rows first ending = history rows' first ending := by
  have hmem (row : Recorded) : row ∈ rows.filter (chronology.covers (.range first ending)) ↔
      row ∈ rows'.filter (chronology.covers (.range first ending)) := by
    rw [mem_inRange, mem_inRange]
    exact and_congr_left fun hrow => hsame row (Std.le_trans hrow.2 hending)
  rw [history, history, latestPerDate_congr (h.filter _) (h'.filter _) hmem, fromFirst, fromFirst,
    valueOn?_congr h h' hsame hfirst]

/-- A query that has its days within the bound has the same observations. -/
theorem observations_congr {query : Query} {first : Date} (hfirst : query.date = .on first)
    (hlast : ∀ day ∈ query.dates, day ≤ last) :
    observations rows query.resolution = observations rows' query.resolution := by
  obtain ⟨date, dateTo⟩ := query
  obtain rfl : date = .on first := hfirst
  cases dateTo with
  | none =>
    have hday : first ≤ last := hlast first List.mem_cons_self
    show (valueOn? rows first).toList.map _ = (valueOn? rows' first).toList.map _
    rw [valueOn?_congr h h' hsame hday]
  | some ending =>
    exact history_congr h h' hsame (hlast first List.mem_cons_self)
      (hlast ending (List.mem_cons_of_mem _ List.mem_cons_self))

/-- A base within the bound is the base of both. -/
theorem base_of_sameUpTo {row : Recorded} (hrow : chronology.pick? rows .base = some row)
    (hdate : row.date ≤ last) : chronology.pick? rows' .base = some row := by
  obtain ⟨⟨hmem, hcovers⟩, hbest⟩ := (Chronology.pick?_eq_some_iff h).1 hrow
  refine (Chronology.pick?_eq_some_iff h').2 ⟨⟨(hsame row hdate).1 hmem, hcovers⟩, ?_⟩
  intro r hr hcovers
  by_cases hlate : r.date ≤ last
  · exact hbest r ((hsame r hlate).2 hr) hcovers
  · exact Chronology.downTo_iff.2 (.inl (Std.lt_of_le_of_lt hdate (Std.not_le.1 hlate)))

end Observations

theorem value_ne_zero_of_base {rows : List Recorded} {row : Recorded}
    (h : chronology.pick? rows .base = some row) : row.value ≠ 0 := by
  have hcovers := (Chronology.mem_of_pick? h).2
  simpa [Chronology.covers] using hcovers

/-- The base is no later than any row that could be one. -/
theorem date_base_le {rows : List Recorded} (h : chronology.Distinct rows) {row r : Recorded}
    (hrow : chronology.pick? rows .base = some row) (hr : r ∈ rows) (hvalue : r.value ≠ 0) :
    row.date ≤ r.date := by
  have hbest := ((Chronology.pick?_eq_some_iff h).1 hrow).2 r hr (by simpa [Chronology.covers])
  rcases Chronology.downTo_iff.1 hbest with hlt | ⟨heq, -⟩
  · exact Std.le_of_lt hlt
  · exact Std.le_of_eq heq.symm

theorem exists_base {rows : List Recorded} {r : Recorded} (hr : r ∈ rows) (hvalue : r.value ≠ 0) :
    ∃ row, chronology.pick? rows .base = some row :=
  Chronology.exists_pick? hr (by simpa [Chronology.covers])

/-- Before the base everything is zero. -/
theorem value_of_mem_observations {rows : List Recorded} {last first : Date}
    (hzero : ∀ row ∈ rows, row.date ≤ last → row.value = 0) {query : Query}
    (hfirst : query.date = .on first) (hlast : ∀ day ∈ query.dates, day ≤ last) {o : Observation}
    (ho : o ∈ observations rows query.resolution) : o.value = 0 := by
  have hcarried {day : Date} (hday : day ≤ last) {v : Value} (hv : valueOn? rows day = some v) :
      v = 0 := by
    obtain ⟨row, hrow, rfl⟩ := Option.map_eq_some_iff.1 hv
    obtain ⟨hmem, hcovers⟩ := Chronology.mem_of_pick? hrow
    exact hzero row hmem (Std.le_trans (Chronology.covers_onOrBefore.1 hcovers) hday)
  obtain ⟨date, dateTo⟩ := query
  obtain rfl : date = .on first := hfirst
  have hday : first ≤ last := hlast first (by cases dateTo <;> exact List.mem_cons_self)
  cases dateTo with
  | none =>
    obtain ⟨v, hv, rfl⟩ := List.mem_map.1 ho
    exact hcarried hday (Option.mem_toList.1 hv)
  | some ending =>
    rcases mem_fromFirst.1 ho with ho | ⟨-, -, hv⟩
    · obtain ⟨row, hrow, rfl, -, hending⟩ := date_of_mem_inRange ho
      have hlate := hlast ending (List.mem_cons_of_mem _ List.mem_cons_self)
      exact hzero row hrow (Std.le_trans hending hlate)
    · exact hcarried hday hv

theorem relativeTo_zero {base : Value} (hbase : base ≠ 0) {o : Observation} (ho : o.value = 0) :
    relativeTo base o = .ok o := by
  obtain ⟨date, value⟩ := o
  obtain rfl := ho
  rw [relativeTo_eq_ok_iff, fractionTowardZero, if_neg hbase]
  refine ⟨rfl, fitting_eq_ok_iff.2 ?_⟩
  have hzero : (0 : Value).toInt = 0 := rfl
  rw [hzero, Int.zero_mul, Int.zero_tdiv]

/-! ## Calls -/

section Base
variable {source : Source} {binding : Binding} {rows : List Recorded}
  (h : Answers source binding rows)
include h

theorem outcome_earliest : (value source binding .earliest).outcome =
    nonempty ((chronology.pick? rows .base).toList.map (·.toObservation)) := outcome_value h _

/-- With a base in the table, an index relates the observations of the query to it. -/
theorem outcome_index_of_base {row : Recorded} (hrow : chronology.pick? rows .base = some row)
    (query : Query) : (index source binding query).outcome =
      (value source binding query).outcome >>= fun current =>
        if query.isSinglePoint ∧ current.length ≠ 1 then
          .error (.expectedExactlyOne "current value" current.length)
        else current.mapM (relativeTo row.value) := by
  have hearliest : (value source binding .earliest).outcome = .ok [row.toObservation] := by
    rw [outcome_earliest h, hrow]
    rfl
  rw [outcome_index, hearliest, ok_bind]

/-- There is no index without a base. -/
theorem exists_base_of_index {query : Query} {found : List Observation}
    (hok : (index source binding query).outcome = .ok found) :
    ∃ row, chronology.pick? rows .base = some row := by
  cases hp : chronology.pick? rows .base with
  | some row => exact ⟨row, rfl⟩
  | none =>
    have hearliest : (value source binding .earliest).outcome = .error .noDataFound := by
      rw [outcome_earliest h, hp]
      rfl
    rw [outcome_index, hearliest, error_bind] at hok
    cases hok

end Base

section Calls
variable {source source' : Source} {binding : Binding} {rows rows' : List Recorded}
  {query : Query} {first last : Date} (h : Answers source binding rows)
  (h' : Answers source' binding rows') (hsame : Recorded.SameUpTo last rows rows')
  (hfirst : query.date = .on first) (hlast : ∀ day ∈ query.dates, day ≤ last)
include h h' hsame hfirst hlast

theorem value_of_sameUpTo :
    (value source binding query).outcome = (value source' binding query).outcome := by
  rw [outcome_value h, outcome_value h',
    observations_congr h.chronology_distinct h'.chronology_distinct hsame hfirst hlast]

theorem index_of_sameUpTo (hbase : ∃ row ∈ rows, row.value ≠ 0 ∧ row.date ≤ last) :
    (index source binding query).outcome = (index source' binding query).outcome := by
  have hd := h.chronology_distinct
  obtain ⟨r, hr, hvalue, hdate⟩ := hbase
  obtain ⟨row, hrow⟩ := exists_base hr hvalue
  have hrow' := base_of_sameUpTo hd h'.chronology_distinct hsame hrow
    (Std.le_trans (date_base_le hd hrow hr hvalue) hdate)
  rw [outcome_index_of_base h hrow, outcome_index_of_base h' hrow',
    value_of_sameUpTo h h' hsame hfirst hlast]

/-- An index that has been given stands if later rows are added. -/
theorem index_of_subset (hsub : rows ⊆ rows') {found : List Observation}
    (hok : (index source binding query).outcome = .ok found) :
    (index source' binding query).outcome = .ok found := by
  by_cases hbase : ∃ row ∈ rows, row.value ≠ 0 ∧ row.date ≤ last
  · rw [← index_of_sameUpTo h h' hsame hfirst hlast hbase, hok]
  · have hzero : ∀ row ∈ rows, row.date ≤ last → row.value = 0 := by
      intro row hrow hdate
      by_contra hvalue
      exact hbase ⟨row, hrow, hvalue, hdate⟩
    obtain ⟨row, hp⟩ := exists_base_of_index h hok
    have hrow := (Chronology.mem_of_pick? hp).1
    obtain ⟨row', hp'⟩ := exists_base (hsub hrow) (value_ne_zero_of_base hp)
    rw [outcome_index_of_base h hp] at hok
    rw [outcome_index_of_base h' hp', ← value_of_sameUpTo h h' hsame hfirst hlast, ← hok]
    cases hcurrent : (value source binding query).outcome with
    | error e => rw [error_bind, error_bind]
    | ok current =>
      rw [outcome_value h, nonempty_eq_ok_iff] at hcurrent
      obtain ⟨rfl, -⟩ := hcurrent
      -- Both bases relate a zero to a zero.
      have hmap : (observations rows query.resolution).mapM (relativeTo row'.value) =
          (observations rows query.resolution).mapM (relativeTo row.value) := by
        apply mapM_congr
        intro o ho
        have ho := value_of_mem_observations hzero hfirst hlast ho
        rw [relativeTo_zero (value_ne_zero_of_base hp') ho,
          relativeTo_zero (value_ne_zero_of_base hp) ho]
      rw [ok_bind, ok_bind, hmap]

end Calls
end Primitive

namespace Catalogue

/-- An answer carries over if the answers of the primitive series that are reached do. -/
theorem evaluateBelow_eq_ok_of_reaches {c : Catalogue} {source source' : Source} {method : Method}
    {query : Query} {id : SeriesId} {rows : List Observation}
    (hcall : ∀ x binding, c.Reaches id x → c.definition x = .ok (some (.primitive binding)) →
      ∀ found, (Primitive.call source binding method query).outcome = .ok found →
        (Primitive.call source' binding method query).outcome = .ok found)
    {path : List SeriesId} (h : (c.evaluateBelow source method query path id).outcome = .ok rows) :
    (c.evaluateBelow source' method query path id).outcome = .ok rows := by
  induction path, id using below_induction c generalizing rows with
  | step path id ih =>
  obtain ⟨hid, series, hd, hanswer⟩ := exists_answer_of_ok h
  cases series with
  | primitive binding =>
    rw [evaluateBelow_of_primitive hid hd]
    exact hcall id binding .refl hd rows hanswer
  | composed comp =>
    rw [evaluateBelow_of_composed hid hd, ← hanswer]
    apply Composition.outcome_combineWith_congr
    intro k hk
    have hedge : c.HasConstituent id k.id := ⟨comp, hd, k, hk, rfl⟩
    obtain ⟨s, hok⟩ := exists_ok_of_hasConstituent h hedge
    rw [resolveBelow, resolveBelow, Traced.outcome_mapError, Traced.outcome_mapError, hok,
      ih hid k.id hedge (fun x binding hx => hcall x binding (.head hedge hx)) hok]

/-- A primitive series with the binding is met on some way down. -/
def Draws (c : Catalogue) (id : SeriesId) (binding : Binding) : Prop :=
  ∃ x, c.Reaches id x ∧ c.definition x = .ok (some (.primitive binding))

section Draws
variable {c : Catalogue} {id : SeriesId} {binding : Binding}

theorem Draws.of_hasConstituent {k : SeriesId} (hedge : c.HasConstituent id k)
    (h : c.Draws k binding) : c.Draws id binding := by
  obtain ⟨x, hx, hd⟩ := h
  exact ⟨x, .head hedge hx, hd⟩

/-- A primitive series draws on its own table. -/
theorem draws_of_primitive {binding' : Binding}
    (hd : c.definition id = .ok (some (.primitive binding))) :
    c.Draws id binding' ↔ binding' = binding := by
  constructor
  · rintro ⟨x, hx, hdx⟩
    rcases Relation.ReflTransGen.cases_head hx with rfl | ⟨k, ⟨comp, hcomp, -⟩, -⟩
    · rw [hd] at hdx
      cases hdx
      rfl
    · rw [hd] at hcomp
      cases hcomp
  · rintro rfl
    exact ⟨id, .refl, hd⟩

/-- A composition draws on what its constituents draw on. -/
theorem draws_of_composed {comp : Composition}
    (hd : c.definition id = .ok (some (.composed comp))) :
    c.Draws id binding ↔ ∃ k ∈ comp.constituents, c.Draws k.id binding := by
  constructor
  · rintro ⟨x, hx, hdx⟩
    rcases Relation.ReflTransGen.cases_head hx with rfl | ⟨_, ⟨comp', hcomp, k, hk, rfl⟩, hx⟩
    · rw [hd] at hdx
      cases hdx
    · rw [hd] at hcomp
      cases hcomp
      exact ⟨k, hk, x, hx, hdx⟩
  · rintro ⟨k, hk, h⟩
    exact .of_hasConstituent ⟨comp, hd, k, hk, rfl⟩ h

end Draws

/-- For a query of days up to a last one, later rows of the tables that are reached do not count.
The values are the same, as answers or as failures, and so are the indices if every table has a base
by then. What is answered stays answered, by either method, when rows are only added. -/
theorem evaluate_of_sameUpTo {c : Catalogue} {source source' : Source}
    {tables tables' : Binding → List Recorded} {id : SeriesId} {query : Query} {first last : Date}
    (hsource : ∀ binding, c.Draws id binding → Answers source binding (tables binding))
    (hsource' : ∀ binding, c.Draws id binding → Answers source' binding (tables' binding))
    (hfirst : query.date = .on first) (hlast : ∀ day ∈ query.dates, day ≤ last)
    (hsame : ∀ binding, c.Draws id binding →
      Recorded.SameUpTo last (tables binding) (tables' binding)) :
    let before (method : Method) := (c.evaluate source id method query).outcome
    let after (method : Method) := (c.evaluate source' id method query).outcome
    before .value = after .value ∧
      ((∀ binding, c.Draws id binding →
          ∃ row ∈ tables binding, row.value ≠ 0 ∧ row.date ≤ last) →
        before .index = after .index) ∧
      ((∀ binding, c.Draws id binding → tables binding ⊆ tables' binding) →
        ∀ method rows, before method = .ok rows → after method = .ok rows) := by
  have hvalue (binding : Binding) (hb : c.Draws id binding) :
      (Primitive.value source binding query).outcome =
        (Primitive.value source' binding query).outcome :=
    Primitive.value_of_sameUpTo (hsource binding hb) (hsource' binding hb) (hsame binding hb)
      hfirst hlast
  refine ⟨?_, fun hbase => ?_, fun hsub method rows hok => ?_⟩
  · apply outcome_evaluateBelow_congr_of_reaches (fun _ _ => rfl)
    intro x binding hx hd
    exact hvalue binding ⟨x, hx, hd⟩
  · apply outcome_evaluateBelow_congr_of_reaches (fun _ _ => rfl)
    intro x binding hx hd
    have hb : c.Draws id binding := ⟨x, hx, hd⟩
    exact Primitive.index_of_sameUpTo (hsource binding hb) (hsource' binding hb)
      (hsame binding hb) hfirst hlast (hbase binding hb)
  · refine evaluateBelow_eq_ok_of_reaches (fun x binding hx hd found hfound => ?_) hok
    have hb : c.Draws id binding := ⟨x, hx, hd⟩
    cases method with
    | value => exact (hvalue binding hb).symm.trans hfound
    | index =>
      exact Primitive.index_of_subset (hsource binding hb) (hsource' binding hb)
        (hsame binding hb) hfirst hlast (hsub binding hb) hfound

/-- What the household records in the week after. -/
def laterRows : List Recorded :=
  [⟨⟨⟨2024, 1, 9, by decide⟩, 0⟩, "2024-01-09T09"⟩,
    ⟨⟨⟨2024, 1, 8, by decide⟩, 900⟩, "2024-01-10T09"⟩]

theorem evaluate_of_sameUpTo_household :
    let c := household.catalogue
    let tables (binding : Binding) := householdTables binding ++ laterRows
    let query : Query := ⟨.on ⟨2024, 1, 2, by decide⟩, some ⟨2024, 1, 6, by decide⟩⟩
    let before (method : Method) :=
      (c.evaluate (Source.ofTables householdTables) "prices" method query).outcome
    let after (method : Method) :=
      (c.evaluate (Source.ofTables tables) "prices" method query).outcome
    (∀ binding, Answers (Source.ofTables householdTables) binding (householdTables binding)) ∧
      (∀ binding, Answers (Source.ofTables tables) binding (tables binding)) ∧
      (∀ binding, Recorded.SameUpTo ⟨2024, 1, 6, by decide⟩ (householdTables binding)
        (tables binding)) ∧
      before .value = after .value ∧ before .index = after .index ∧
      ∀ method rows, before method = .ok rows → after method = .ok rows := by
  intro c tables query before after
  have hbefore (binding : Binding) :
      Answers (Source.ofTables householdTables) binding (householdTables binding) := by
    apply Source.answers_ofTables
    rw [householdTables]
    split <;> decide
  have hafter (binding : Binding) : Answers (Source.ofTables tables) binding (tables binding) := by
    apply Source.answers_ofTables
    show (householdTables binding ++ laterRows).Pairwise _
    rw [householdTables]
    split <;> decide
  have hsame (binding : Binding) : Recorded.SameUpTo ⟨2024, 1, 6, by decide⟩
      (householdTables binding) (tables binding) :=
    Recorded.sameUpTo_append _ (by decide)
  have hbase (binding : Binding) : ∃ row ∈ householdTables binding,
      row.value ≠ 0 ∧ row.date ≤ ⟨2024, 1, 6, by decide⟩ := by
    rw [householdTables]
    split <;> decide
  obtain ⟨hvalue, hindex, hkept⟩ := @evaluate_of_sameUpTo c _ _ _ _ "prices" query _ _
    (fun binding _ => hbefore binding) (fun binding _ => hafter binding) rfl (by decide)
    (fun binding _ => hsame binding)
  exact ⟨hbefore, hafter, hsame, hvalue, hindex fun binding _ => hbase binding,
    hkept fun binding _ => List.subset_append_left _ _⟩

end Catalogue
end TimeSeries
