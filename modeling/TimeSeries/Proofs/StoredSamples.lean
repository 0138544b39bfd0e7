import TimeSeries.Proofs.Reachability
import TimeSeries.Proofs.Recording
import TimeSeries.Proofs.Selection

/-!
What is recorded is read back through a binding that has the dates and the moments in the same
columns, whichever these are. A recording is kept unless its binding has both in one column.
-/
namespace TimeSeries

open Text (sameName)
open Store

/-! ## Columns of a binding -/

theorem Table.column?_congr (t : Table) {m n : String} (h : sameName m n = true) :
    t.column? n = t.column? m := by
  rw [column?, column?]
  congr 1
  funext p
  exact Text.sameName_congr_right h p.1.name

/-- The place of a textual column in a provisioned table. -/
def textPosition (column : String) : Nat := if sameName "date_value" column then 0 else 2

theorem textPosition_of_date {column : String} (h : sameName "date_value" column = true) :
    textPosition column = 0 := if_pos h

theorem textPosition_of_created {column : String} (h : sameName "created_at" column = true) :
    textPosition column = 2 := by
  have hdate : sameName "date_value" column = false := by
    rw [Text.sameName_congr_right h]
    decide
  rw [textPosition, hdate]
  rfl

theorem textPosition_congr {m n : String} (h : sameName m n = true) :
    textPosition n = textPosition m := by
  rw [textPosition, textPosition, Text.sameName_congr_right h]

/-- A textual column of a provisioned table. -/
def textColumn (column : String) : Column :=
  { name := if sameName "date_value" column then "date_value" else "created_at"
    declared := "TEXT"
    notNull := true }

theorem Binding.IsTextual.column?_primitive {column : String} (h : IsTextual column) (name : String)
    (rows : List Row) : (primitiveTable name rows).column? column =
      some (textColumn column, textPosition column) := by
  rcases h with h | h
  · rw [Table.column?_congr _ h, textPosition_of_date h, textColumn, if_pos h]
    rfl
  · have hdate : sameName "date_value" column = false := by
      rw [Text.sameName_congr_right h]
      decide
    rw [Table.column?_congr _ h, textPosition_of_created h, textColumn, hdate]
    rfl

/-- The column of values of a provisioned table. -/
def Session.valueColumn : Column := { name := "value", declared := "INTEGER", notNull := true }

theorem Session.isNonzero_valueColumn (v : Value) :
    valueColumn.isNonzero (.integer v) = (v != 0) := Column.isNonzero_integer rfl v

/-- The columns of a provisioned table that a binding names. -/
def Binding.columns (b : Binding) : Columns :=
  ⟨textColumn b.dateColumn, Session.valueColumn, textColumn b.createdAtColumn⟩

/-- A provisioned table through the columns of a binding. -/
def Binding.view (b : Binding) (n : String) (rows : List Row) : View :=
  ⟨b.columns, primitiveTable n rows, textPosition b.dateColumn, 1, textPosition b.createdAtColumn⟩

theorem Database.view?_primitive {db : Database} {b : Binding} {n : String} {rows : List Row}
    (htable : db.table? b.table = some (primitiveTable n rows))
    (hvalid : b.validate [(primitiveTable n []).schema] = .ok ()) :
    db.view? b = some (b.view n rows) := by
  obtain ⟨hdate, hvalue, hcreated⟩ := Binding.columns_of_validate hvalid
  have hv : (primitiveTable n rows).column? b.valueColumn = some (Session.valueColumn, 1) := by
    rw [Table.column?_congr _ hvalue]
    rfl
  simp only [Database.view?, htable, hdate.column?_primitive, hcreated.column?_primitive, hv,
    Option.bind_eq_bind, Option.bind_some]
  rfl

/-- What a call of a primitive series comes to. -/
theorem Store.call_of_primitive [Scan] {db : Database} {id : SeriesId} {b : Binding}
    (h : definition db id = .ok (some (.primitive b))) (method : Method) (query : Query) :
    call db id method query = (Primitive.call db.source b method query).outcome := by
  rw [call, Catalogue.evaluate, Catalogue.evaluateBelow_of_primitive (by simp) h]

namespace Posting

/-- The sample as it is stored. -/
def recorded (p : Posting) : Recorded := ⟨p.observation, p.moment.stamp⟩

theorem isFourDigit_recorded {postings : List Posting}
    (h : ∀ p ∈ postings, p.observation.date.IsFourDigit) :
    ∀ r ∈ postings.map recorded, r.date.IsFourDigit := List.forall_mem_map.2 h

/-- The posting and the binding have the dates in one column, and the moments in one. -/
def SameColumns (p : Posting) (b : Binding) : Prop :=
  sameName b.dateColumn p.binding.dateColumn = true ∧
    sameName b.createdAtColumn p.binding.createdAtColumn = true

instance (p : Posting) (b : Binding) : Decidable (p.SameColumns b) :=
  inferInstanceAs (Decidable (_ ∧ _))

/-- A row without a missing cell is read as the sample that was recorded. -/
theorem Roles.entry_eq {p : Posting} (h : p.Roles)
    (hdiffer : sameName p.binding.dateColumn p.binding.createdAtColumn = false) (n : String)
    (rows : List Row) : (p.binding.view n rows).entry p.row = Entry.ofRecorded p.recorded := by
  cases h with
  | standard hdate hcreated hrow =>
    rw [View.entry, Binding.view, textPosition_of_date hdate, textPosition_of_created hcreated, hrow]
    rfl
  | exchanged hdate hcreated hrow =>
    rw [View.entry, Binding.view, textPosition_of_created hdate, textPosition_of_date hcreated, hrow]
    rfl
  | sharedDate hdate hcreated _ =>
    rw [Text.sameName_congr hdate, hcreated] at hdiffer
    cases hdiffer
  | sharedCreated hdate hcreated _ =>
    rw [Text.sameName_congr hdate, hcreated] at hdiffer
    cases hdiffer

end Posting

namespace Session

variable {s : Session} {registrations : List Registration} {names : List String}

/-! ## What a recording keeps -/

/-- A recording is kept under a binding that has two columns for date and moment. -/
def kept (series : Option Series) (observation : Observation) (moment : Instant) : List Posting :=
  match series with
  | some (.primitive b) =>
    if sameName b.dateColumn b.createdAtColumn then [] else [⟨b, observation, moment⟩]
  | _ => []

theorem postings_post_of_error {id : SeriesId} {observation : Observation} {moment : Instant}
    {result : Except Error Unit × Database} {e : Error} (h : result.1 = .error e) :
    (s.post id observation moment result).postings = s.postings := by
  obtain ⟨outcome, db⟩ := result
  obtain rfl : outcome = .error e := h
  unfold post
  cases s.registry.find? id with
  | none => rfl
  | some series => cases series <;> rfl

theorem Holds.postings_record (h : s.Holds registrations names) (id : SeriesId)
    (observation : Observation) (moment : Instant) :
    (s.perform (.record id observation moment)).postings =
      s.postings ++ kept (s.registry.find? id) observation moment := by
  have hrun := run_record h.layout id observation moment
  rw [← h.registry] at hrun
  rw [Session.perform]
  cases hs : s.registry.find? id with
  | none =>
    rw [hs] at hrun
    exact (postings_post_of_error (congrArg Prod.fst hrun)).trans (List.append_nil _).symm
  | some series =>
    cases series with
    | composed c =>
      rw [hs] at hrun
      exact (postings_post_of_error (congrArg Prod.fst hrun)).trans (List.append_nil _).symm
    | primitive b =>
      have houtcome := h.outcome_record hs observation moment
      rw [kept]
      split at houtcome
      · next hshared => rw [postings_post_of_error houtcome, if_pos hshared, List.append_nil]
      · next hdiffer =>
        obtain ⟨b', hb', hpostings⟩ := h.postings_of_record houtcome
        rw [hs] at hb'
        cases hb'
        rw [if_neg hdiffer]
        exact hpostings

theorem postings_keep (s : Session) (id : SeriesId) (series : Except Error Series)
    (result : Except Error SeriesInfo × Database) :
    (s.keep id series result).postings = s.postings := by
  unfold Session.keep
  split <;> rfl

/-- The postings have two columns each for date and moment. -/
def ColumnsDiffer (s : Session) : Prop :=
  ∀ p ∈ s.postings, sameName p.binding.dateColumn p.binding.createdAtColumn = false

theorem Holds.columnsDiffer_perform (h : s.Holds registrations names) (hdiffer : s.ColumnsDiffer)
    (step : StoreStep) : (s.perform step).ColumnsDiffer := by
  cases step with
  | registerPrimitive now id metadata =>
    rw [ColumnsDiffer, Session.perform, postings_keep]
    exact hdiffer
  | registerComposed now id metadata =>
    rw [ColumnsDiffer, Session.perform, postings_keep]
    exact hdiffer
  | record id observation moment =>
    rw [ColumnsDiffer, h.postings_record]
    intro p hp
    rcases List.mem_append.1 hp with hp | hp
    · exact hdiffer p hp
    · unfold kept at hp
      split at hp
      · split at hp
        · cases hp
        · next hdiffer =>
          rw [List.mem_singleton.1 hp]
          exact Bool.eq_false_iff.2 hdiffer
      · cases hp
  | _ => exact hdiffer

/-- Nothing is recorded under a binding that has one column for both. -/
theorem columnsDiffer_after (steps : List StoreStep) : (after steps).ColumnsDiffer := by
  have hstart : (after []).ColumnsDiffer := nofun
  exact after_append_induction (P := ColumnsDiffer) hstart Holds.columnsDiffer_perform steps

/-- Recordings under one identifier. -/
def recordings (id : SeriesId) (records : List (Observation × Instant)) : List StoreStep :=
  records.map fun (observation, moment) => .record id observation moment

/-- Recordings are kept in turn, and leave the definitions as they are. -/
theorem after_recordings (steps : List StoreStep) (id : SeriesId)
    (records : List (Observation × Instant)) :
    (after (steps ++ recordings id records)).registry = (after steps).registry ∧
      (after (steps ++ recordings id records)).postings = (after steps).postings ++
        records.flatMap fun (observation, moment) =>
          kept ((after steps).registry.find? id) observation moment := by
  induction records using List.reverseRecOn with
  | nil => simp [recordings]
  | append_singleton records record ih =>
    obtain ⟨observation, moment⟩ := record
    obtain ⟨registrations, names, h⟩ := exists_holds_after (steps ++ recordings id records)
    have hsteps : steps ++ recordings id (records ++ [(observation, moment)]) =
        steps ++ recordings id records ++ [.record id observation moment] := by
      simp [recordings]
    rw [hsteps, after_concat, h.postings_record, ih.2, ih.1, perform, registry_post, ih.1]
    simp

/-! ## Reading back -/

/-- What was recorded into a table. -/
def recordedIn (s : Session) (table : String) : List Posting := s.postings.filter (·.isIn table)

theorem recordedIn_congr (s : Session) {m n : String} (h : sameName m n = true) :
    s.recordedIn m = s.recordedIn n := by
  apply List.filter_congr
  intro p _
  rw [Bool.eq_iff_iff]
  constructor
  · intro hp
    exact Text.sameName_trans ((Text.sameName_comm n m).trans h) hp
  · intro hp
    exact Text.sameName_trans h hp

section Samples
variable (h : s.Holds registrations names) (hdiffer : s.ColumnsDiffer) {id : SeriesId} {b : Binding}
  (hb : s.registry.find? id = some (.primitive b))
  (hcolumns : ∀ p ∈ s.recordedIn b.table, p.SameColumns b)
include h hdiffer hb hcolumns

/-- The table of a binding holds the samples recorded into it, if these were recorded into the same
columns. -/
theorem Holds.exists_view : ∃ v, s.database.view? b = some v ∧ v.toColumns = b.columns ∧
    v.table.rows.map v.entry =
      ((s.recordedIn b.table).map Posting.recorded).map Entry.ofRecorded := by
  obtain ⟨n, hn, hvalid⟩ := h.bound id b hb
  have hsame := Database.Layout.sameName_of_validate hvalid
  refine ⟨b.view n (s.rows n),
    Database.view?_primitive (h.layout.table?_primitive hn hsame) hvalid, rfl, ?_⟩
  -- The cells of a row do not depend on the other rows of the table.
  show (s.rows n).map (b.view n []).entry = _
  rw [rows, List.map_map, List.map_map, ← s.recordedIn_congr hsame]
  apply List.map_congr_left
  intro p hp
  obtain ⟨id', hid'⟩ := h.posted p (List.mem_filter.1 hp).1
  obtain ⟨m, -, hvalid'⟩ := h.bound id' p.binding hid'
  obtain ⟨hdate, hcreated⟩ := hcolumns p (s.recordedIn_congr hsame ▸ hp)
  have hentry : (b.view n []).entry p.row = (p.binding.view n []).entry p.row := by
    rw [View.entry, View.entry, Binding.view, Binding.view, textPosition_congr hdate,
      textPosition_congr hcreated]
  exact hentry.trans
    ((Posting.roles hvalid').entry_eq (hdiffer p (List.mem_filter.1 hp).1) n [])

variable [Scan] (hyears : ∀ p ∈ s.recordedIn b.table, p.observation.date.IsFourDigit)
  {lookup : Lookup}
include hyears

/-- Days up to the year 9999 are looked up as documented. -/
theorem Holds.exists_documented (hdates : ∀ day ∈ lookup.dates, day.year ≤ 9999) :
    ∃ found, s.database.source b lookup = .ok found ∧
      Recorded.chronology.Documented ((s.recordedIn b.table).map Posting.recorded) lookup found := by
  obtain ⟨v, hv, hcolumns, hsamples⟩ := h.exists_view hdiffer hb hcolumns
  have hvalues (r : Recorded) : v.values.isNonzero (.integer r.value) = (r.value != 0) := by
    rw [hcolumns]
    exact isNonzero_valueColumn r.value
  have hdocumented := Database.exists_documented_of_view? hv hsamples
    (Posting.isFourDigit_recorded hyears) (fun r _ => hvalues r) hdates
  rwa [hcolumns] at hdocumented

/-- Lookups that end after the year 9999 find nothing. -/
theorem Holds.source_of_isLate (hlate : lookup.isLate = true) :
    s.database.source b lookup = .ok [] := by
  obtain ⟨v, hv, -, hsamples⟩ := h.exists_view hdiffer hb hcolumns
  exact Database.source_of_isLate hv hsamples (Posting.isFourDigit_recorded hyears) hlate

end Samples

/-- What a call of a registered series comes to. -/
theorem Holds.call_eq [Scan] (h : s.Holds registrations names) {id : SeriesId} {b : Binding}
    (hb : s.registry.find? id = some (.primitive b)) (method : Method) (query : Query) :
    Store.call s.database id method query =
      (Primitive.call s.database.source b method query).outcome := by
  exact Store.call_of_primitive ((h.definition_eq id).trans (congrArg _ hb)) method query

end Session
end TimeSeries
