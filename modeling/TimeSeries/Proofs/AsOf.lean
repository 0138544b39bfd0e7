import TimeSeries.Proofs.LaterRows
import TimeSeries.Proofs.Weighting

/-!
Answers as of a day, told by the rows of the table alone. The value as of a day is that of the row
of the greatest date up to it, of several on that date the latest created one; every query reads
such values, and an index is what a value is of the base, truncated toward zero.
-/
namespace TimeSeries.Primitive

open Chronology (pick?_eq_some_iff pick?_eq_none_iff exists_pick?)
open Recorded (chronology)

/-- The row of the greatest date up to a day, the latest created one of that date. -/
def InForce (rows : List Recorded) (day : Date) (row : Recorded) : Prop :=
  row ∈ rows ∧ row.date ≤ day ∧ ∀ r ∈ rows, r.date ≤ day →
    r.date < row.date ∨ r.date = row.date ∧ r.createdAt ≤ row.createdAt

/-- The value as of a day. -/
def AsOf (rows : List Recorded) (day : Date) (v : Value) : Prop :=
  ∃ row, InForce rows day row ∧ row.value = v

/-- The row of the greatest date of all, the latest created one of that date. -/
def IsLatest (rows : List Recorded) (row : Recorded) : Prop :=
  row ∈ rows ∧ ∀ r ∈ rows, r.date < row.date ∨ r.date = row.date ∧ r.createdAt ≤ row.createdAt

/-- The row of the earliest date with a value other than zero, the latest created one of those. -/
def IsBase (rows : List Recorded) (row : Recorded) : Prop :=
  row ∈ rows ∧ row.value ≠ 0 ∧ ∀ r ∈ rows, r.value ≠ 0 →
    row.date < r.date ∨ r.date = row.date ∧ r.createdAt ≤ row.createdAt

/-- A row that there is an answer for, whatever else is in the table. -/
def Bears (row : Recorded) : Resolution → Prop
  | .base => row.value ≠ 0
  | .latest => True
  | .exact day => row.date ≤ day
  | .range first last => row.date ≤ first ∨ row.date ≤ last

/-- In a range that does not end before it starts only its end counts. -/
theorem bears_range_iff {row : Recorded} {first last : Date} (h : first ≤ last) :
    Bears row (.range first last) ↔ row.date ≤ last := by
  constructor
  · rintro (hfirst | hlast)
    · exact Std.le_trans hfirst h
    · exact hlast
  · exact .inr

/-- The observations that answer a query. Those of a range are the value as of its first day and,
from there on, that of every day with a row of its own. -/
def Reads (rows : List Recorded) (found : List Observation) : Resolution → Prop
  | .base => ∃ row, IsBase rows row ∧ found = [row.toObservation]
  | .latest => ∃ row, IsLatest rows row ∧ found = [row.toObservation]
  | .exact day => ∃ v, AsOf rows day v ∧ found = [⟨day, v⟩]
  | .range first last => found.Pairwise (·.date < ·.date) ∧
      ∀ o, o ∈ found ↔ AsOf rows o.date o.value ∧
        (o.date = first ∨ first < o.date ∧ o.date ≤ last ∧ ∃ row ∈ rows, row.date = o.date)

/-- A value in thousandths of a percent of a base. -/
def quotient (base v : Value) : Int := (v.toInt * 100000).tdiv base.toInt

/-- The second observation is the first one relative to a base. -/
def IsIndexOf (base : Value) (o p : Observation) : Prop :=
  p.date = o.date ∧ p.value.toInt = quotient base o.value

/-- Indices are values relative to a base, and fail as the values do or else by not fitting. -/
def Indexes (base : Value) (values indices : Except Error (List Observation)) : Prop :=
  match values with
  | .error e => indices = .error e
  | .ok found =>
    (∀ indexed, indices = .ok indexed ↔ List.Forall₂ (IsIndexOf base) found indexed) ∧
      ∀ e, indices = .error e ↔ e = .overflow ∧ ∃ o ∈ found, ¬ Fits (quotient base o.value)

section Rows
variable {rows : List Recorded} {day first last : Date} {row : Recorded} {v : Value}
  {o : Observation} {resolution : Resolution}

theorem exists_asOf_iff (h : chronology.Distinct rows) :
    (∃ v, AsOf rows day v) ↔ ∃ row ∈ rows, row.date ≤ day := by
  constructor
  · rintro ⟨v, row, ⟨hrow, hday, -⟩, -⟩
    exact ⟨row, hrow, hday⟩
  · rintro ⟨row, hrow, hday⟩
    have hcovers : chronology.covers (.onOrBefore day) row = true := by simpa using hday
    obtain ⟨r, hp⟩ := exists_pick? hrow hcovers
    obtain ⟨⟨hr, hrday⟩, hbest⟩ := (pick?_upTo_eq_some_iff h).1 hp
    exact ⟨r.value, r, ⟨hr, hrday, hbest⟩, rfl⟩

theorem asOf_iff (h : chronology.Distinct rows) : AsOf rows day v ↔ valueOn? rows day = some v := by
  simp only [AsOf, InForce, valueOn?, Option.map_eq_some_iff, pick?_upTo_eq_some_iff h, and_assoc]

theorem isLatest_iff (h : chronology.Distinct rows) :
    IsLatest rows row ↔ chronology.pick? rows .latest = some row := by
  simp [IsLatest, pick?_eq_some_iff h, Chronology.covers, Chronology.order, Chronology.upTo_iff]

theorem isBase_iff (h : chronology.Distinct rows) :
    IsBase rows row ↔ chronology.pick? rows .base = some row := by
  simp [IsBase, pick?_eq_some_iff h, Chronology.covers, Chronology.order, Chronology.downTo_iff,
    and_assoc]

/-- A day of the range is listed if it has a row, with the value as of the day. -/
theorem mem_latestPerDate_inRange_iff (h : chronology.Distinct rows) :
    o ∈ latestPerDate (rows.filter (chronology.covers (.range first last))) ↔
      AsOf rows o.date o.value ∧
        first ≤ o.date ∧ o.date ≤ last ∧ ∃ row ∈ rows, row.date = o.date := by
  have hpick (hfirst : first ≤ o.date) (hlast : o.date ≤ last) :
      chronology.pick? (rows.filter (chronology.covers (.range first last))) (.exact o.date) =
        chronology.pick? rows (.exact o.date) := by
    apply Chronology.pick?_congr (h.filter _) h
    intro row hrow
    rw [Chronology.covers_exact, Recorded.date_chronology] at hrow
    simp [hrow, hfirst, hlast]
  rw [mem_latestPerDate, asOf_iff h, valueOn?]
  constructor
  · rintro ⟨row, hrow, rfl⟩
    obtain ⟨hmem, hfirst, hlast⟩ := mem_inRange.1 (Chronology.mem_of_pick? hrow).1
    rw [hpick hfirst hlast] at hrow
    rw [pick?_upTo_of_exact h hrow]
    exact ⟨rfl, hfirst, hlast, row, hmem, rfl⟩
  · rintro ⟨hvalue, hfirst, hlast, r, hr, hdate⟩
    have hcovers : chronology.covers (.exact o.date) r = true := by simpa using hdate
    obtain ⟨row, hrow⟩ := exists_pick? hr hcovers
    rw [pick?_upTo_of_exact h hrow, Option.map_some, Option.some.injEq] at hvalue
    obtain ⟨date, value⟩ := o
    obtain rfl := date_of_pick? hrow
    obtain rfl := hvalue
    exact ⟨row, by rw [hpick hfirst hlast, hrow], rfl⟩

/-- The first day of a range is listed with the value as of it in any case. -/
theorem mem_history_iff (h : chronology.Distinct rows) : o ∈ history rows first last ↔
    AsOf rows o.date o.value ∧
      (o.date = first ∨ first < o.date ∧ o.date ≤ last ∧ ∃ row ∈ rows, row.date = o.date) := by
  rw [history, mem_fromFirst, mem_latestPerDate_inRange_iff h, ← asOf_iff h]
  constructor
  · rintro (⟨hvalue, hfirst, hlast, hrow⟩ | ⟨-, rfl, hvalue⟩)
    · rcases Std.le_iff_lt_or_eq.1 hfirst with hlt | heq
      · exact ⟨hvalue, .inr ⟨hlt, hlast, hrow⟩⟩
      · exact ⟨hvalue, .inl heq.symm⟩
    · exact ⟨hvalue, .inl rfl⟩
  · rintro ⟨hvalue, rfl | ⟨hlt, hlast, hrow⟩⟩
    · by_cases hhead : (latestPerDate (rows.filter (chronology.covers
          (.range o.date last)))).head?.map (·.date) = some o.date
      · obtain ⟨p, hp, hdate⟩ := Option.map_eq_some_iff.1 hhead
        have hp := ((mem_latestPerDate_inRange_iff h).1 (List.mem_of_mem_head? hp)).2
        rw [hdate] at hp
        exact .inl ⟨hvalue, hp⟩
      · exact .inr ⟨hhead, rfl, hvalue⟩
    · exact .inl ⟨hvalue, Std.le_of_lt hlt, hlast, hrow⟩

/-- There is an answer exactly if a row bears on the query. -/
theorem observations_eq_nil_iff (h : chronology.Distinct rows) :
    observations rows resolution = [] ↔ ∀ row ∈ rows, ¬ Bears row resolution := by
  cases resolution with
  | base => simp [observations, Bears, pick?_eq_none_iff, Chronology.covers]
  | latest => simp [observations, Bears, pick?_eq_none_iff, Chronology.covers]
  | exact day =>
    simp [observations, Bears, valueOn?, pick?_eq_none_iff, ← Bool.not_eq_true]
  | range first last =>
    constructor
    · intro hnil row hrow hbears
      have hnot (day : Date) (hrow : ∃ row ∈ rows, row.date ≤ day) : ¬ (day = first ∨
          first < day ∧ day ≤ last ∧ ∃ row ∈ rows, row.date = day) := by
        intro hday
        obtain ⟨v, hv⟩ := (exists_asOf_iff h).2 hrow
        have hmem : ⟨day, v⟩ ∈ history rows first last := (mem_history_iff h).2 ⟨hv, hday⟩
        rw [show history rows first last = [] from hnil] at hmem
        cases hmem
      by_cases hfirst : row.date ≤ first
      · exact hnot first ⟨row, hrow, hfirst⟩ (.inl rfl)
      · have hlast : row.date ≤ last := hbears.resolve_left hfirst
        exact hnot row.date ⟨row, hrow, Std.le_refl _⟩
          (.inr ⟨Std.not_le.1 hfirst, hlast, row, hrow, rfl⟩)
    · intro hnone
      rw [List.eq_nil_iff_forall_not_mem]
      intro o ho
      obtain ⟨⟨row, ⟨hrow, hdate, -⟩, -⟩, hday⟩ := (mem_history_iff h).1 ho
      apply hnone row hrow
      rcases hday with rfl | ⟨-, hlast, -⟩
      · exact .inl hdate
      · exact .inr (Std.le_trans hdate hlast)

theorem reads_observations (h : chronology.Distinct rows)
    (hne : observations rows resolution ≠ []) :
    Reads rows (observations rows resolution) resolution := by
  cases resolution with
  | base =>
    cases hp : chronology.pick? rows .base with
    | none => simp [observations, hp] at hne
    | some row => exact ⟨row, (isBase_iff h).2 hp, by simp [observations, hp]⟩
  | latest =>
    cases hp : chronology.pick? rows .latest with
    | none => simp [observations, hp] at hne
    | some row => exact ⟨row, (isLatest_iff h).2 hp, by simp [observations, hp]⟩
  | exact day =>
    cases hv : valueOn? rows day with
    | none => simp [observations, hv] at hne
    | some v => exact ⟨v, (asOf_iff h).2 hv, by simp [observations, hv]⟩
  | range first last => exact ⟨history_ascending _ _ _, fun _ => mem_history_iff h⟩

/-- A query that asks for a single point reads a single observation. -/
theorem Reads.length_eq_one {found : List Observation} {query : Query}
    (h : Reads rows found query.resolution) (hpoint : query.isSinglePoint = true) :
    found.length = 1 := by
  obtain ⟨date, _ | last⟩ := query
  · cases date with
    | earliest =>
      obtain ⟨row, -, rfl⟩ := h
      rfl
    | latest =>
      obtain ⟨row, -, rfl⟩ := h
      rfl
    | on day =>
      obtain ⟨v, -, rfl⟩ := h
      rfl
  · cases hpoint

end Rows

/-! ## Indices -/

section Base
variable {base : Value} (hbase : base ≠ 0)
include hbase

theorem relativeTo_eq_ok_iff_isIndexOf {o p : Observation} :
    relativeTo base o = .ok p ↔ IsIndexOf base o p := by
  rw [relativeTo_eq_ok_iff, fractionTowardZero, if_neg hbase, fitting_eq_ok_iff]
  rfl

theorem relativeTo_eq_error_iff {o : Observation} {e : Error} :
    relativeTo base o = .error e ↔ e = .overflow ∧ ¬ Fits (quotient base o.value) := by
  have hunfits : fractionTowardZero o.value indexScale base = fitting (quotient base o.value) :=
    if_neg hbase
  rw [relativeTo, hunfits]
  by_cases hfit : Fits (quotient base o.value)
  · obtain ⟨v, hv⟩ := exists_fitting_iff.2 hfit
    simp [hv, hfit]
  · simp [fitting_of_not_fits hfit, hfit, eq_comm]

/-- The first quotient that does not fit is the only failure. -/
theorem indexes_mapM (found : List Observation) :
    Indexes base (.ok found) (found.mapM (relativeTo base)) := by
  have hok (indexed : List Observation) : found.mapM (relativeTo base) = .ok indexed ↔
      List.Forall₂ (IsIndexOf base) found indexed := by
    simp only [mapM_eq_ok_iff, relativeTo_eq_ok_iff_isIndexOf hbase]
  refine ⟨hok, fun e => ?_⟩
  constructor
  · intro he
    obtain ⟨before, o, after, rfl, -, ho⟩ := mapM_eq_error_iff.1 he
    obtain ⟨rfl, hfit⟩ := (relativeTo_eq_error_iff hbase).1 ho
    exact ⟨rfl, o, by simp, hfit⟩
  · rintro ⟨rfl, o, ho, hfit⟩
    cases hmap : found.mapM (relativeTo base) with
    | ok indexed =>
      obtain ⟨p, -, hp⟩ := exists_of_forall₂_left ((hok indexed).1 hmap) ho
      exact absurd (hp.2 ▸ fits_toInt p.value) hfit
    | error e =>
      obtain ⟨_, q, _, -, -, hq⟩ := mapM_eq_error_iff.1 hmap
      rw [((relativeTo_eq_error_iff hbase).1 hq).1]

end Base

/-- Answers are as of the days that are asked for: a value tells what the rows say, or that none of
them bears on the query, and an index tells the same relative to the base, or that there is none. -/
theorem value_and_index_asOf {source : Source} {binding : Binding} {rows : List Recorded}
    (h : Answers source binding rows) (query : Query) :
    let values := (value source binding query).outcome
    let indices := (index source binding query).outcome
    ((∃ row ∈ rows, Bears row query.resolution) ∧
          (∃ found, values = .ok found ∧ Reads rows found query.resolution) ∨
        (∀ row ∈ rows, ¬ Bears row query.resolution) ∧ values = .error .noDataFound) ∧
      ((∃ base, IsBase rows base ∧ Indexes base.value values indices) ∨
        (∀ row ∈ rows, row.value = 0) ∧ indices = .error .noDataFound) := by
  intro values indices
  have hd := h.chronology_distinct
  have hvalues : values = nonempty (observations rows query.resolution) := outcome_value h query
  constructor
  · by_cases hnil : observations rows query.resolution = []
    · refine .inr ⟨(observations_eq_nil_iff hd).1 hnil, ?_⟩
      rw [hvalues, hnil]
      rfl
    · have hsome : ∃ row ∈ rows, Bears row query.resolution := by
        by_contra hnone
        exact hnil ((observations_eq_nil_iff hd).2 (by simpa using hnone))
      refine .inl ⟨hsome, _, ?_, reads_observations hd hnil⟩
      rw [hvalues, nonempty_eq_ok_iff]
      exact ⟨rfl, hnil⟩
  · cases hbase : chronology.pick? rows .base with
    | none =>
      refine .inr ⟨?_, ?_⟩
      · simpa [Chronology.covers] using pick?_eq_none_iff.1 hbase
      · show (index source binding query).outcome = _
        rw [outcome_index, outcome_earliest h, hbase]
        rfl
    | some base =>
      refine .inl ⟨base, (isBase_iff hd).2 hbase, ?_⟩
      have hindices : indices = _ := outcome_index_of_base h hbase query
      change indices = (values >>= _) at hindices
      rw [hindices]
      cases hfound : values with
      | error e => rfl
      | ok found =>
        rw [hvalues, nonempty_eq_ok_iff] at hfound
        obtain ⟨rfl, hne⟩ := hfound
        have hone := (reads_observations hd hne).length_eq_one
        rw [ok_bind, if_neg fun hmany => hmany.2 (hone hmany.1)]
        exact indexes_mapM (value_ne_zero_of_base hbase) _

/-- A zero, a value and its correction, and a later value that is listed first. -/
def correctedRows : List Recorded :=
  [⟨⟨⟨2024, 2, 9, by decide⟩, 7⟩, "2024-02-09T09"⟩,
    ⟨⟨⟨2024, 2, 1, by decide⟩, 0⟩, "2024-02-01T09"⟩,
    ⟨⟨⟨2024, 2, 4, by decide⟩, -2⟩, "2024-02-04T09"⟩,
    ⟨⟨⟨2024, 2, 4, by decide⟩, -3⟩, "2024-02-05T09"⟩]

theorem value_and_index_asOf_corrected :
    let source := Source.ofTables fun _ => correctedRows
    let binding : Binding := .standard "prices"
    let query : Query := ⟨.on ⟨2024, 2, 6, by decide⟩, some ⟨2024, 2, 9, by decide⟩⟩
    let values := (value source binding query).outcome
    let indices := (index source binding query).outcome
    let found : List Observation :=
      [⟨⟨2024, 2, 6, by decide⟩, -3⟩, ⟨⟨2024, 2, 9, by decide⟩, 7⟩]
    Answers source binding correctedRows ∧ values = .ok found ∧
      indices = .ok
        [⟨⟨2024, 2, 6, by decide⟩, 100000⟩, ⟨⟨2024, 2, 9, by decide⟩, -233333⟩] ∧
      Reads correctedRows found query.resolution ∧
      ∃ base, IsBase correctedRows base ∧ Indexes base.value values indices := by
  intro source binding query values indices found
  have h : Answers source binding correctedRows := by
    apply Source.answers_ofTables
    decide
  have hvalues : values = .ok found := by decide +kernel
  refine ⟨h, hvalues, by decide +kernel, ?_⟩
  obtain ⟨⟨-, _, hok, hreads⟩ | ⟨-, hnone⟩, hbase | ⟨hzero, -⟩⟩ := value_and_index_asOf h query
  · exact ⟨Except.ok.inj (hvalues.symm.trans hok) ▸ hreads, hbase⟩
  · exact absurd hzero (by decide)
  · cases hvalues.symm.trans hnone
  · cases hvalues.symm.trans hnone

end TimeSeries.Primitive
