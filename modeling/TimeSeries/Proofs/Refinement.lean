import TimeSeries.Proofs.Dependence
import TimeSeries.Proofs.PrimitiveAnswers
import TimeSeries.Proofs.QueryTexts
import TimeSeries.Proofs.Stamps
import TimeSeries.Proofs.StoredSamples

/-!
A store answers its calls as the engine does over the definitions that were registered and the
observations that were recorded. The texts in its tables stand for dates and moments in the years 0
to 9999, and recordings that fall into one microsecond cannot be told apart. Of later days that are
asked for it knows nothing.
-/
namespace TimeSeries

open Text (sameName)
open Store

namespace Posting

/-- The chronology of what was recorded: by the moments themselves. -/
def chronology : Chronology Posting where
  sample := observation
  notAfter p q := p.moment.notAfter q.moment
  trans p q r := Instant.notAfter_trans p.moment q.moment r.moment
  total p q := Instant.notAfter_total p.moment q.moment

def IsFourDigit (p : Posting) : Prop := p.observation.date.IsFourDigit ∧ p.moment.date.IsFourDigit

instance (p : Posting) : Decidable p.IsFourDigit := inferInstanceAs (Decidable (_ ∧ _))

/-- The postings share the table, the date and the microsecond. -/
def Collides (p q : Posting) : Prop :=
  sameName p.binding.table q.binding.table = true ∧ p.observation.date = q.observation.date ∧
    p.moment.SameMicrosecond q.moment

instance (p q : Posting) : Decidable (p.Collides q) := inferInstanceAs (Decidable (_ ∧ _ ∧ _))

theorem Collides.symm {p q : Posting} (h : p.Collides q) : q.Collides p := by
  obtain ⟨hsame, hdate, hday, hsecond, hmicro⟩ := h
  have hsame' := (Text.sameName_comm q.binding.table p.binding.table).trans hsame
  exact ⟨hsame', hdate.symm, hday.symm, hsecond.symm, hmicro.symm⟩

theorem collides_of_isIn {table : String} {p q : Posting} (hp : p.isIn table = true)
    (hq : q.isIn table = true) (hdate : p.observation.date = q.observation.date)
    (hmicro : p.moment.SameMicrosecond q.moment) : p.Collides q := by
  have hpt : sameName p.binding.table table = true := (Text.sameName_comm _ _).trans hp
  exact ⟨Text.sameName_trans hpt hq, hdate, hmicro⟩

section Table
variable {table : String} {postings : List Posting} (hyears : ∀ p ∈ postings, p.IsFourDigit)
  (hdistinct : postings.Pairwise fun p q => ¬ p.Collides q)
  (hin : ∀ p ∈ postings, p.isIn table = true)
include hyears hdistinct hin

/-- In one table, postings for one date have different stamps. -/
theorem distinct_recorded : (postings.map recorded).Pairwise fun a b =>
    ¬ (a.date = b.date ∧ a.createdAt = b.createdAt) := by
  rw [List.pairwise_map]
  apply hdistinct.imp_of_mem
  rintro p q hp hq hnot ⟨hdate, hstamp⟩
  have hmicro := (Instant.stamp_eq_stamp_iff (hyears p hp).2 (hyears q hq).2).1 hstamp
  exact hnot (collides_of_isIn (hin p hp) (hin q hq) hdate hmicro)

/-- What is documented of the postings of a table is documented of the samples as they are stored. -/
theorem documented_recorded {lookup : Lookup} {found : List Posting}
    (h : chronology.Documented postings lookup found) :
    Recorded.chronology.Documented (postings.map recorded) lookup (found.map recorded) := by
  have hsymm : Std.Symm fun p q : Posting => ¬ p.Collides q :=
    ⟨fun p q hnot hcollides => hnot hcollides.symm⟩
  refine h.map ?_ ?_
  · intro p
    rfl
  · intro p hp q hq hdate hnotAfter
    rw [Recorded.notAfter_chronology, decide_eq_true_eq]
    by_cases hpq : p = q
    · subst hpq
      exact String.le_refl _
    · have hnot : ¬ p.moment.SameMicrosecond q.moment := by
        intro hmicro
        exact List.Pairwise.forall hdistinct hp hq hpq
          (collides_of_isIn (hin p hp) (hin q hq) hdate hmicro)
      exact (Instant.stamp_le_stamp_iff (hyears p hp).2 (hyears q hq).2 hnot).2 hnotAfter

end Table

end Posting

namespace Session

section Standard
variable {s : Session} {registrations : List Registration} {names : List String}
  (h : s.Holds registrations names) (hstandard : s.IsStandard)
include h hstandard

theorem columns_of_mem_postings {p : Posting} (hp : p ∈ s.postings) :
    p.binding.dateColumn = "date_value" ∧ p.binding.createdAtColumn = "created_at" := by
  obtain ⟨id, hid⟩ := h.posted p hp
  rw [hstandard id p.binding hid]
  exact ⟨rfl, rfl⟩

theorem columnsDiffer_of_isStandard : s.ColumnsDiffer := by
  intro p hp
  obtain ⟨hdate, hcreated⟩ := columns_of_mem_postings h hstandard hp
  rw [hdate, hcreated]
  decide

/-- With standard names of columns, everything in a table is recorded into the same columns. -/
theorem sameColumns_of_isStandard {id : SeriesId} {b : Binding}
    (hb : s.registry.find? id = some (.primitive b)) :
    ∀ p ∈ s.recordedIn b.table, p.SameColumns b := by
  intro p hp
  obtain ⟨hdate, hcreated⟩ := columns_of_mem_postings h hstandard (List.mem_filter.1 hp).1
  rw [Posting.SameColumns, hdate, hcreated, hstandard id b hb]
  exact ⟨Text.sameName_self _, Text.sameName_self _⟩

end Standard

/-- A source that answers every lookup of a registered series as documented from what was recorded
into its table. -/
def Documents (s : Session) (source : Source) : Prop :=
  ∀ id b, s.registry.find? id = some (.primitive b) → ∀ lookup, ∃ found,
    source b lookup = .ok (found.map Posting.recorded) ∧
      Posting.chronology.Documented (s.recordedIn b.table) lookup found

theorem Documents.answers {s : Session} {source : Source} (h : s.Documents source)
    (hyears : ∀ p ∈ s.postings, p.IsFourDigit)
    (hdistinct : s.postings.Pairwise fun p q => ¬ p.Collides q) {id : SeriesId} {b : Binding}
    (hb : s.registry.find? id = some (.primitive b)) :
    Answers source b ((s.recordedIn b.table).map Posting.recorded) := by
  have hyears' : ∀ p ∈ s.recordedIn b.table, p.IsFourDigit :=
    fun p hp => hyears p (List.mem_filter.1 hp).1
  have hdistinct' : (s.recordedIn b.table).Pairwise fun p q => ¬ p.Collides q :=
    hdistinct.filter _
  have hin : ∀ p ∈ s.recordedIn b.table, p.isIn b.table = true :=
    fun p hp => (List.mem_filter.1 hp).2
  refine ⟨Posting.distinct_recorded hyears' hdistinct' hin, fun lookup => ?_⟩
  obtain ⟨found, hfound, hdocumented⟩ := h id b hb lookup
  exact ⟨_, hfound, Posting.documented_recorded hyears' hdistinct' hin hdocumented⟩

/-- The source that answers from what was recorded. -/
def source (s : Session) : Source := fun b lookup =>
  .ok ((Posting.chronology.answer (s.recordedIn b.table) lookup).map Posting.recorded)

theorem documents_source {s : Session}
    (hdistinct : s.postings.Pairwise fun p q => ¬ p.Collides q) : s.Documents s.source := by
  intro id b _ lookup
  refine ⟨_, rfl, Chronology.documented_answer ?_ lookup⟩
  apply (hdistinct.filter _).imp_of_mem
  intro p q hp hq hnot hties
  obtain ⟨hdate, hpq, hqp⟩ := hties
  exact hnot (Posting.collides_of_isIn (List.mem_filter.1 hp).2 (List.mem_filter.1 hq).2 hdate
    (Instant.sameMicrosecond_of_notAfter hpq hqp))

end Session

theorem Query.mem_dates {query : Query} {lookup : Lookup} (hlookup : lookup ∈ query.lookups)
    {day : Date} (hday : day ∈ lookup.dates) : day ∈ query.dates := by
  unfold lookups at hlookup
  unfold dates
  rcases List.mem_cons.1 hlookup with rfl | hlookup
  · cases hday
  · cases hq : query.resolution with
    | base =>
      rw [hq] at hlookup
      cases hlookup
    | latest =>
      rw [hq] at hlookup
      obtain rfl := List.mem_singleton.1 hlookup
      cases hday
    | exact d =>
      rw [hq] at hlookup
      simp only [List.mem_cons, List.not_mem_nil, or_false] at hlookup
      rcases hlookup with rfl | rfl <;> exact hday
    | range first last =>
      rw [hq] at hlookup
      simp only [List.mem_cons, List.not_mem_nil, or_false] at hlookup
      rcases hlookup with rfl | rfl
      · exact hday
      · exact List.mem_cons.2 (.inl (List.mem_singleton.1 hday))

/-- The source that finds nothing if a lookup ends after the year 9999. -/
def Source.upTo9999 (source : Source) : Source := fun b lookup =>
  if lookup.isLate then .ok [] else source b lookup

theorem Source.upTo9999_of_dates {source : Source} {b : Binding} {lookup : Lookup}
    (h : ∀ day ∈ lookup.dates, day.year ≤ 9999) : source.upTo9999 b lookup = source b lookup := by
  rw [upTo9999, Lookup.isLate_of_dates h, if_neg Bool.false_ne_true]

/-- A range does not end before it starts. -/
def Query.IsOrdered (query : Query) : Prop :=
  ∀ first last, query.resolution = .range first last → first ≤ last

/-- An ordered query that names a day after the year 9999 ends with one. -/
theorem Query.IsOrdered.isLate {query : Query} (hordered : query.IsOrdered)
    (hlate : ∃ day ∈ query.dates, 9999 < day.year) {lookup : Lookup}
    (hlookup : lookup ∈ query.lookups) :
    lookup.isLate = true ∨ (∀ day ∈ lookup.dates, day.year ≤ 9999) ∧
      ∀ first last, lookup ≠ .range first last := by
  obtain ⟨day, hday, hyear⟩ := hlate
  have hbase : (∀ day ∈ Lookup.base.dates, day.year ≤ 9999) ∧
      ∀ first last, Lookup.base ≠ .range first last := by
    refine ⟨List.forall_mem_nil _, fun first last h => ?_⟩
    cases h
  cases hq : query.resolution with
  | base =>
    rw [dates, hq] at hday
    cases hday
  | latest =>
    rw [dates, hq] at hday
    cases hday
  | exact d =>
    rw [dates, hq, List.mem_singleton] at hday
    subst hday
    simp only [lookups, hq, List.mem_cons, List.not_mem_nil, or_false] at hlookup
    rcases hlookup with rfl | rfl | rfl
    · exact .inr hbase
    · exact .inl (decide_eq_true hyear)
    · exact .inl (decide_eq_true hyear)
  | range first last =>
    have hlast : 9999 < last.year := by
      have hle : first.year ≤ last.year := by
        have hnot := Std.not_lt.2 (hordered first last hq)
        rw [Date.lt_iff_lex] at hnot
        omega
      simp only [dates, hq, List.mem_cons, List.not_mem_nil, or_false] at hday
      rcases hday with rfl | rfl <;> omega
    simp only [lookups, hq, List.mem_cons, List.not_mem_nil, or_false] at hlookup
    rcases hlookup with rfl | rfl | rfl
    · exact .inr hbase
    · exact .inl (decide_eq_true hlast)
    · by_cases hfirst : 9999 < first.year
      · exact .inl (decide_eq_true hfirst)
      · refine .inr ⟨fun day hday => ?_, fun first last h => ?_⟩
        · rw [Lookup.dates, List.mem_singleton] at hday
          subst hday
          omega
        · cases h

section Calls
variable [Scan] {s : Session} {registrations : List Registration} {names : List String}
  (h : s.Holds registrations names) (hstandard : s.IsStandard)
  (hyears : ∀ p ∈ s.postings, p.IsFourDigit)
  (hdistinct : s.postings.Pairwise fun p q => ¬ p.Collides q) {source : Source}
  (hsource : s.Documents source)

include h in
/-- A call is answered as by another source if the calls of all primitive series are. -/
theorem Session.Holds.call_eq_of_primitives {source : Source} {method : Method} {query : Query}
    (hcall : ∀ id b, s.registry.find? id = some (.primitive b) →
      (Primitive.call s.database.source b method query).outcome =
        (Primitive.call source b method query).outcome) (id : SeriesId) :
    Store.call s.database id method query =
      (s.registry.catalogue.evaluate source id method query).outcome := by
  rw [Store.call, Catalogue.evaluate, Catalogue.evaluate]
  symm
  apply Catalogue.outcome_evaluateBelow_congr
  · intro id
    exact h.definition_eq id
  · intro id b hb
    exact (hcall id b (Except.ok.inj hb)).symm

include h hstandard hyears hdistinct hsource

/-- Without a day after the year 9999 a call of a table answers as documented. -/
theorem Session.outcome_call_eq {id : SeriesId} {b : Binding}
    (hb : s.registry.find? id = some (.primitive b)) (method : Method) {query : Query}
    (hquery : ∀ day ∈ query.dates, day.year ≤ 9999) :
    (Primitive.call s.database.source b method query).outcome =
      (Primitive.call source b method query).outcome := by
  apply Primitive.outcome_call_eq_of_lookups _ (hsource.answers hyears hdistinct hb)
  intro lookup hlookup
  apply h.exists_documented (Session.columnsDiffer_of_isStandard h hstandard) hb
    (Session.sameColumns_of_isStandard h hstandard hb)
    (fun p hp => (hyears p (List.mem_filter.1 hp).1).1)
  intro day hday
  exact hquery day (Query.mem_dates hlookup hday)

/-- With one, it answers as if there were no rows. -/
theorem Session.call_eq_of_late {id : SeriesId} {b : Binding}
    (hb : s.registry.find? id = some (.primitive b)) (method : Method) {query : Query}
    (hordered : query.IsOrdered) (hlate : ∃ day ∈ query.dates, 9999 < day.year) :
    Primitive.call s.database.source b method query =
      Primitive.call source.upTo9999 b method query := by
  have hdiffer := Session.columnsDiffer_of_isStandard h hstandard
  have hcolumns := Session.sameColumns_of_isStandard h hstandard hb
  have hdays : ∀ p ∈ s.recordedIn b.table, p.observation.date.IsFourDigit :=
    fun p hp => (hyears p (List.mem_filter.1 hp).1).1
  apply Primitive.call_congr
  intro lookup hlookup
  rcases hordered.isLate hlate hlookup with hlate | ⟨hdates, hone⟩
  · rw [h.source_of_isLate hdiffer hb hcolumns hdays hlate, Source.upTo9999, if_pos hlate]
  · have hanswers := hsource.answers hyears hdistinct hb
    obtain ⟨found, hfound, hdocumented⟩ := h.exists_documented hdiffer hb hcolumns hdays hdates
    obtain ⟨found', hfound', hdocumented'⟩ := hanswers.documented lookup
    rw [Source.upTo9999_of_dates hdates, hfound, hfound',
      hdocumented.unique hanswers.chronology_distinct hone hdocumented']

end Calls

/-- After any run from an empty store, in which series are registered on tables by the standard
names of their columns, every call is answered as the engine answers it over the registered
definitions and a source that answers from the recorded observations as documented, if the query
names no day after the year 9999. With any days, lookups that end after that year find nothing. -/
theorem Store.call_eq_evaluate [Scan] {steps : List StoreStep}
    (hsteps : ∀ step ∈ steps, Session.StandardStep step)
    (hyears : ∀ p ∈ (Session.after steps).postings, p.IsFourDigit)
    (hdistinct : (Session.after steps).postings.Pairwise fun p q => ¬ p.Collides q)
    {source : Source} (hsource : (Session.after steps).Documents source) (id : SeriesId)
    (method : Method) (query : Query) :
    let s := Session.after steps
    ((∀ day ∈ query.dates, day.year ≤ 9999) → Store.call s.database id method query =
      (s.registry.catalogue.evaluate source id method query).outcome) ∧
    (query.IsOrdered → Store.call s.database id method query =
      (s.registry.catalogue.evaluate source.upTo9999 id method query).outcome) := by
  intro s
  obtain ⟨registrations, names, h⟩ := Session.exists_holds_after steps
  have hstandard := Session.isStandard_after hsteps
  constructor
  · intro hquery
    apply h.call_eq_of_primitives
    intro id b hb
    exact Session.outcome_call_eq h hstandard hyears hdistinct hsource hb method hquery
  · intro hordered
    apply h.call_eq_of_primitives
    intro id b hb
    by_cases hlate : ∃ day ∈ query.dates, 9999 < day.year
    · rw [Session.call_eq_of_late h hstandard hyears hdistinct hsource hb method hordered hlate]
    · have hquery : ∀ day ∈ query.dates, day.year ≤ 9999 := by
        intro day hday
        exact Int.not_lt.1 fun hyear => hlate ⟨day, hday, hyear⟩
      have hcongr : Primitive.call source b method query =
          Primitive.call source.upTo9999 b method query := by
        apply Primitive.call_congr
        intro lookup hlookup
        symm
        apply Source.upTo9999_of_dates
        intro day hday
        exact hquery day (Query.mem_dates hlookup hday)
      rw [Session.outcome_call_eq h hstandard hyears hdistinct hsource hb method hquery, hcongr]

/-- Noon on a day of March 2024. -/
def noon (day : Nat) (h : Calendar.IsDay 2024 3 day) : Instant :=
  ⟨⟨2024, 3, day, h⟩, 43200, 0, by decide, by decide⟩

/-- Bread is registered on a table in other letters, and refused a second time; so are a recording
into the meal, which is composed, and one into a series that is not registered. -/
def bakery : List StoreStep :=
  [.createTable "food",
    .registerPrimitive (noon 1 (by decide)) "bread" (.ofList [("table_name", "FOOD")]),
    .registerPrimitive (noon 1 (by decide)) "bread" (.ofList [("table_name", "food")]),
    .registerComposed (noon 2 (by decide)) "meal" (.ofList [("a_id", "bread"), ("a_weight", "3")]),
    .record "bread" ⟨⟨2024, 3, 3, by decide⟩, 1600⟩ (noon 3 (by decide)),
    .record "meal" ⟨⟨2024, 3, 3, by decide⟩, 1⟩ (noon 3 (by decide)),
    .record "milk" ⟨⟨2024, 3, 3, by decide⟩, 1⟩ (noon 3 (by decide)),
    .record "bread" ⟨⟨2024, 3, 5, by decide⟩, 2000⟩ (noon 5 (by decide)),
    .record "bread" ⟨⟨2024, 3, 3, by decide⟩, 1200⟩ (noon 4 (by decide)), .reopen]

theorem Store.call_eq_evaluate_bakery :
    let s := Session.after bakery
    let query : Query := ⟨.on ⟨2024, 3, 2, by decide⟩, some ⟨2024, 3, 6, by decide⟩⟩
    let late : Query := .on ⟨10000, 1, 1, by decide⟩
    (∀ step ∈ bakery, Session.StandardStep step) ∧ (∀ p ∈ s.postings, p.IsFourDigit) ∧
      s.postings.Pairwise (fun p q => ¬ p.Collides q) ∧ s.Documents s.source ∧
      (∀ day ∈ query.dates, day.year ≤ 9999) ∧
      Store.call s.database "meal" .value query =
        .ok [⟨⟨2024, 3, 3, by decide⟩, 1200⟩, ⟨⟨2024, 3, 5, by decide⟩, 2000⟩] ∧
      Store.call s.database "meal" .value query =
        (s.registry.catalogue.evaluate s.source "meal" .value query).outcome ∧
      late.IsOrdered ∧ Store.call s.database "meal" .value late =
        (s.registry.catalogue.evaluate s.source.upTo9999 "meal" .value late).outcome := by
  intro s query late
  have hsteps : ∀ step ∈ bakery, Session.StandardStep step := by decide +kernel
  have hquery : ∀ day ∈ query.dates, day.year ≤ 9999 := by decide
  have hlate : late.IsOrdered := by
    intro first last h
    cases h
  -- One evaluation of the run serves all three.
  obtain ⟨hyears, hdistinct, hcall⟩ : (∀ p ∈ s.postings, p.IsFourDigit) ∧
      (s.postings.Pairwise fun p q => ¬ p.Collides q) ∧
        Store.call s.database "meal" .value query =
          .ok [⟨⟨2024, 3, 3, by decide⟩, 1200⟩, ⟨⟨2024, 3, 5, by decide⟩, 2000⟩] := by
    decide +kernel
  have hsource := Session.documents_source hdistinct
  obtain ⟨hevaluate, -⟩ := Store.call_eq_evaluate hsteps hyears hdistinct hsource "meal" .value query
  obtain ⟨-, hupTo⟩ := Store.call_eq_evaluate hsteps hyears hdistinct hsource "meal" .value late
  exact ⟨hsteps, hyears, hdistinct, hsource, hquery, hcall, hevaluate hquery, hlate, hupTo hlate⟩

/-- The text of a later year comes before all others, so a day in such a year finds nothing in the
database. Queries that are read from text do not name one. -/
theorem Store.call_ne_evaluate_after_9999 :
    let s := Session.after bakery
    let query : Query := .on ⟨10000, 1, 1, by decide⟩
    Store.call s.database "bread" .value query = .error .noDataFound ∧
      (s.registry.catalogue.evaluate s.source "bread" .value query).outcome =
        .ok [⟨⟨10000, 1, 1, by decide⟩, 2000⟩] := by
  decide +kernel

end TimeSeries
