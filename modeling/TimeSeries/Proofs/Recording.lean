import TimeSeries.Proofs.Sessions

/-!
What recording comes to after a registration. A binding is checked one column at a time, so that its
date and its moment of recording may share a column of a provisioned table. Then one of the three
columns is left without a cell, and every recording is refused. With two columns none is, ever.
-/
namespace TimeSeries

open Text (sameName)
open Store Database.Layout

/-! ## Roles of columns -/

theorem Binding.exists_column_of_checkColumn {table : TableSchema} {role column : String}
    {expected : ColumnType} (h : checkColumn table role column expected = .ok ()) :
    ∃ c ∈ table.columns, sameName c.name column = true ∧ c.type = expected := by
  rw [checkColumn] at h
  cases hc : table.column? column with
  | none =>
    rw [hc] at h
    cases h
  | some c =>
    have hname := List.find?_some (p := fun c : ColumnSchema => sameName c.name column) hc
    rw [hc] at h
    dsimp only at h
    split at h
    · next htype => exact ⟨c, List.mem_of_find?_eq_some hc, hname, htype⟩
    · cases h

/-- A textual column of a provisioned table. -/
def Binding.IsTextual (column : String) : Prop :=
  sameName "date_value" column = true ∨ sameName "created_at" column = true

theorem Binding.isTextual_of_checkColumn {n role column : String}
    (h : checkColumn (primitiveTable n []).schema role column .text = .ok ()) :
    IsTextual column := by
  have htext : ∀ c ∈ (primitiveTable n []).schema.columns, c.type = .text →
      c.name = "date_value" ∨ c.name = "created_at" := by
    show ∀ c ∈ primitiveColumns.map Column.schema, _
    decide
  obtain ⟨c, hc, hname, htype⟩ := exists_column_of_checkColumn h
  rcases htext c hc htype with h | h
  · exact .inl (h ▸ hname)
  · exact .inr (h ▸ hname)

theorem Binding.sameName_of_checkColumn {n role column : String}
    (h : checkColumn (primitiveTable n []).schema role column .integer = .ok ()) :
    sameName "value" column = true := by
  have hinteger : ∀ c ∈ (primitiveTable n []).schema.columns, c.type = .integer →
      c.name = "value" := by
    show ∀ c ∈ primitiveColumns.map Column.schema, _
    decide
  obtain ⟨c, hc, hname, htype⟩ := exists_column_of_checkColumn h
  exact hinteger c hc htype ▸ hname

/-- The columns of a binding that is accepted for a provisioned table. -/
theorem Binding.columns_of_validate {b : Binding} {n : String}
    (h : b.validate [(primitiveTable n []).schema] = .ok ()) :
    IsTextual b.dateColumn ∧ sameName "value" b.valueColumn = true ∧
      IsTextual b.createdAtColumn := by
  have hsame := sameName_of_validate h
  have hfind : TableSchema.find? [(primitiveTable n []).schema] b.table =
      some (primitiveTable n []).schema := List.find?_cons_of_pos hsame
  rw [validate, bind_eq_ok_iff] at h
  obtain ⟨_, -, h⟩ := h
  rw [hfind] at h
  obtain ⟨_, hdate, h⟩ := bind_eq_ok_iff.1 h
  obtain ⟨_, hvalue, hcreated⟩ := bind_eq_ok_iff.1 h
  exact ⟨isTextual_of_checkColumn hdate, sameName_of_checkColumn hvalue,
    isTextual_of_checkColumn hcreated⟩

namespace Posting

/-- The row of a posting in a provisioned table, by the columns that its binding names for the date
and for the moment. -/
inductive Roles (p : Posting) : Prop
  | standard (hdate : sameName "date_value" p.binding.dateColumn = true)
      (hcreated : sameName "created_at" p.binding.createdAtColumn = true)
      (hrow : p.row =
        [.text p.observation.date.text, .integer p.observation.value, .text p.moment.stamp])
  | exchanged (hdate : sameName "created_at" p.binding.dateColumn = true)
      (hcreated : sameName "date_value" p.binding.createdAtColumn = true)
      (hrow : p.row =
        [.text p.moment.stamp, .integer p.observation.value, .text p.observation.date.text])
  | sharedDate (hdate : sameName "date_value" p.binding.dateColumn = true)
      (hcreated : sameName "date_value" p.binding.createdAtColumn = true)
      (hrow : p.row = [.text p.observation.date.text, .integer p.observation.value, .null])
  | sharedCreated (hdate : sameName "created_at" p.binding.dateColumn = true)
      (hcreated : sameName "created_at" p.binding.createdAtColumn = true)
      (hrow : p.row = [.null, .integer p.observation.value, .text p.observation.date.text])

/-- The row goes by the names of the columns whatever the case of their letters. -/
theorem row_of_sameName {p : Posting} {date value created : String}
    (hdate : sameName date p.binding.dateColumn = true)
    (hvalue : sameName value p.binding.valueColumn = true)
    (hcreated : sameName created p.binding.createdAtColumn = true) :
    p.row = primitiveRow [(date, .text p.observation.date.text),
      (value, .integer p.observation.value), (created, .text p.moment.stamp)] := by
  simp only [row, given, primitiveRow, List.find?_cons, Text.sameName_congr hdate,
    Text.sameName_congr hvalue, Text.sameName_congr hcreated]
  apply List.map_congr_left
  intro c _
  cases sameName date c.name <;> cases sameName value c.name <;> cases sameName created c.name <;>
    rfl

theorem roles {p : Posting} {n : String}
    (h : p.binding.validate [(primitiveTable n []).schema] = .ok ()) : p.Roles := by
  obtain ⟨hdate | hdate, hvalue, hcreated | hcreated⟩ := Binding.columns_of_validate h
  · exact .sharedDate hdate hcreated (row_of_sameName hdate hvalue hcreated)
  · exact .standard hdate hcreated (row_of_sameName hdate hvalue hcreated)
  · exact .exchanged hdate hcreated (row_of_sameName hdate hvalue hcreated)
  · exact .sharedCreated hdate hcreated (row_of_sameName hdate hvalue hcreated)

/-- A cell is missing exactly if the date and the moment share a column. -/
theorem Roles.null_mem_row_iff {p : Posting} (h : p.Roles) :
    Cell.null ∈ p.row ↔ sameName p.binding.dateColumn p.binding.createdAtColumn = true := by
  cases h with
  | standard hdate hcreated hrow =>
    rw [hrow, Text.sameName_congr hdate, Text.sameName_comm, Text.sameName_congr hcreated]
    simp +decide
  | exchanged hdate hcreated hrow =>
    rw [hrow, Text.sameName_congr hdate, Text.sameName_comm, Text.sameName_congr hcreated]
    simp +decide
  | sharedDate hdate hcreated hrow =>
    rw [hrow, Text.sameName_congr hdate, hcreated]
    simp
  | sharedCreated hdate hcreated hrow =>
    rw [hrow, Text.sameName_congr hdate, hcreated]
    simp

end Posting

/-! ## Rows that are refused -/

theorem Store.isSome_column?_primitive {name column : String} {rows : List Row} {c : Column}
    (hc : c ∈ primitiveColumns) (hname : sameName c.name column = true) :
    ((primitiveTable name rows).column? column).isSome = true := by
  obtain ⟨i, hi, rfl⟩ := List.mem_iff_getElem.1 hc
  rw [Table.column?, List.isSome_find?, List.any_eq_true]
  exact ⟨(primitiveColumns[i], i), List.mk_mem_zipIdx_iff_getElem?.2 (List.getElem?_eq_getElem hi),
    hname⟩

theorem Store.rowOf?_posting {p : Posting} {n : String} {rows : List Row}
    (h : p.binding.validate [(primitiveTable n []).schema] = .ok ()) :
    (primitiveTable n rows).rowOf? p.given = some p.row := by
  have htextual {column : String} (hcolumn : Binding.IsTextual column) :
      ((primitiveTable n rows).column? column).isSome = true := by
    rcases hcolumn with hcolumn | hcolumn
    · exact isSome_column?_primitive (c := primitiveColumns[0]) (by decide) hcolumn
    · exact isSome_column?_primitive (c := primitiveColumns[2]) (by decide) hcolumn
  obtain ⟨hdate, hvalue, hcreated⟩ := Binding.columns_of_validate h
  have hvalue : ((primitiveTable n rows).column? p.binding.valueColumn).isSome = true :=
    isSome_column?_primitive (c := primitiveColumns[1]) (by decide) hvalue
  rw [Table.rowOf?, if_pos]
  · rfl
  · simp only [Posting.given, List.all_cons, List.all_nil, htextual hdate, hvalue,
      htextual hcreated, Bool.and_self]

/-- A provisioned table takes every row of its width that leaves no column without a cell. -/
theorem Store.add?_primitiveTable (name : String) (rows : List Row) (a b c : Cell) :
    (primitiveTable name rows).add? [a, b, c] =
      if Cell.null ∈ [a, b, c] then none else some (primitiveTable name (rows ++ [[a, b, c]])) := by
  have hnumbering : (primitiveTable name rows).numbering? = none := rfl
  have hclash (row other : Row) : (primitiveTable name rows).clash row other = false := by
    rw [Table.clash, List.any_eq_false]
    rintro ⟨column, x, y⟩ hmem
    have hcolumn : column.unique = false := by
      have hall : ∀ column ∈ primitiveColumns, column.unique = false := by decide
      exact hall column (List.of_mem_zip hmem).1
    simp [hcolumn]
  have hadmits : (primitiveTable name rows).admits [a, b, c] = !decide (Cell.null ∈ [a, b, c]) := by
    have hall : ((primitiveTable name rows).rows.all fun other =>
        !(primitiveTable name rows).clash [a, b, c] other) = true := by
      rw [List.all_eq_true]
      intro other _
      rw [hclash]
      rfl
    rw [Table.admits, hall, Bool.and_true, Bool.eq_iff_iff]
    simp [primitiveTable, primitiveColumns, @eq_comm _ Cell.null]
  simp only [Table.add?, Table.numbered?, hnumbering, Option.bind_eq_bind, Option.bind_some,
    Table.place, hadmits, Bool.not_eq_true', decide_eq_false_iff_not, ite_not]
  rfl

/-- An accepted binding takes every observation, or else it takes none. -/
theorem Database.Layout.insert?_posting {db : Database} {registrations : List Registration}
    {names : List String} {rows : String → List Row} (h : db.Layout registrations names rows)
    {p : Posting} {n : String} (hn : n ∈ names)
    (hvalid : p.binding.validate [(primitiveTable n []).schema] = .ok ()) :
    (db.insert? p.binding.table p.given).isSome =
      !sameName p.binding.dateColumn p.binding.createdAtColumn := by
  have hsame := sameName_of_validate hvalid
  have htable := h.table?_primitive hn hsame
  have hroles := Posting.roles hvalid
  obtain ⟨a, b, c, hrow⟩ : ∃ a b c, p.row = [a, b, c] := ⟨_, _, _, rfl⟩
  have hnull := hroles.null_mem_row_iff
  rw [hrow] at hnull
  rw [insert?_eq htable, rowOf?_posting hvalid, hrow, Option.bind_some, add?_primitiveTable]
  by_cases hmem : Cell.null ∈ [a, b, c]
  · rw [if_pos hmem, hnull.1 hmem]
    rfl
  · rw [if_neg hmem, Bool.eq_false_iff.2 fun hsame => hmem (hnull.2 hsame)]
    rfl

namespace Session

variable {s : Session} {registrations : List Registration} {names : List String}

/-! ## Definitions stay -/

theorem Holds.find?_keep (h : s.Holds registrations names) {id : SeriesId} {series : Series}
    (hid : s.registry.find? id = some series) (now : Instant) (id' : SeriesId) (series' : Series) :
    (s.keep id' (.ok series') ((insertDefinition now id' series').run s.database)).registry.find?
      id = some series := by
  by_cases hnew : registered? registrations id' = none
  · obtain ⟨db', hrun, -⟩ := run_insertDefinition_of_new h.layout now series' hnew
    have hne : id ≠ id' := by
      rintro rfl
      rw [h.registry, hnew] at hid
      cases hid
    rw [hrun]
    exact (SortedMap.find?_insert_of_ne _ hne _).trans hid
  · rw [run_insertDefinition_of_taken h.layout now series' hnew]
    exact hid

theorem registry_post (s : Session) (id : SeriesId) (observation : Observation) (moment : Instant)
    (result : Except Error Unit × Database) :
    (s.post id observation moment result).registry = s.registry := by
  unfold post
  split <;> rfl

/-- No step changes a definition. -/
theorem Holds.find?_perform (h : s.Holds registrations names) {id : SeriesId} {series : Series}
    (hid : s.registry.find? id = some series) (step : StoreStep) :
    (s.perform step).registry.find? id = some series := by
  cases step with
  | registerPrimitive now id' metadata =>
    rw [Session.perform, run_registerPrimitive]
    cases Binding.ofMetadata metadata s.database.schemas with
    | error e => exact hid
    | ok b => exact h.find?_keep hid now id' (.primitive b)
  | registerComposed now id' metadata =>
    rw [Session.perform, run_registerComposed]
    cases Composition.ofMetadata metadata with
    | error e => exact hid
    | ok c => exact h.find?_keep hid now id' (.composed c)
  | record id' observation moment =>
    rw [Session.perform, registry_post]
    exact hid
  | _ => exact hid

theorem find?_after_append {steps : List StoreStep} {id : SeriesId} {series : Series}
    (hid : (after steps).registry.find? id = some series) (later : List StoreStep) :
    (after (steps ++ later)).registry.find? id = some series :=
  after_append_induction (P := fun s => s.registry.find? id = some series) hid
    (fun h hid => h.find?_perform hid) later

/-- What a step registers is the definition from then on. -/
theorem find?_after_step {steps : List StoreStep} {step : StoreStep} {id : SeriesId}
    {series : Series}
    (h : ((after steps).perform step).registry = (after steps).registry.insert id series)
    (later : List StoreStep) :
    (after (steps ++ step :: later)).registry.find? id = some series := by
  rw [← List.singleton_append, ← List.append_assoc]
  apply find?_after_append
  rw [after_concat, h, SortedMap.find?_insert_self]

/-- A registration that succeeds has an accepted binding, which is the definition from then on. -/
theorem exists_binding_after {steps : List StoreStep} {now : Instant} {id : SeriesId}
    {metadata : Metadata} {info : SeriesInfo}
    (hok : ((registerPrimitive now id metadata).run (after steps).database).1 = .ok info) :
    ∃ b, Binding.ofMetadata metadata (after steps).database.schemas = .ok b ∧
      ∀ later, (after (steps ++ .registerPrimitive now id metadata :: later)).registry.find? id =
        some (.primitive b) := by
  obtain ⟨series, hseries, hregistry⟩ := registry_of_registerPrimitive hok
  obtain ⟨b, hb, rfl⟩ := map_eq_ok_iff.1 hseries
  exact ⟨b, hb, find?_after_step hregistry⟩

/-- What recording comes to is decided by the columns of the binding. -/
theorem Holds.outcome_record (h : s.Holds registrations names) {id : SeriesId} {b : Binding}
    (hid : s.registry.find? id = some (.primitive b)) (observation : Observation)
    (moment : Instant) : ((Store.record id observation moment).run s.database).1 =
      if sameName b.dateColumn b.createdAtColumn then .error (.backingStore none) else .ok () := by
  obtain ⟨n, hn, hvalid⟩ := h.bound id b hid
  have hinsert : (s.database.insert? b.table (Posting.given ⟨b, observation, moment⟩)).isSome =
      !sameName b.dateColumn b.createdAtColumn :=
    h.layout.insert?_posting (p := ⟨b, observation, moment⟩) hn hvalid
  rw [run_record h.layout, ← h.registry, hid]
  dsimp only
  cases hdb : s.database.insert? b.table (Posting.given ⟨b, observation, moment⟩) with
  | none =>
    rw [hdb, Option.isSome_none, eq_comm, Bool.not_eq_false'] at hinsert
    rw [if_pos hinsert]
  | some db' =>
    rw [hdb, Option.isSome_some, eq_comm, Bool.not_eq_true'] at hinsert
    rw [if_neg (Bool.eq_false_iff.1 hinsert)]

end Session

/-- After a registration on a table, recording under the identifier always succeeds if the binding
names two columns for the date and the moment of recording, and never if it names one, whatever is
done in between, recorded and of which day. -/
theorem Store.record_after_registerPrimitive {steps : List StoreStep} {now : Instant} {id : SeriesId}
    {metadata : Metadata} {info : SeriesInfo}
    (hok : ((registerPrimitive now id metadata).run (Session.after steps).database).1 = .ok info) :
    ∃ b, Binding.ofMetadata metadata (Session.after steps).database.schemas = .ok b ∧
      ∀ later observation moment,
        let s := Session.after (steps ++ .registerPrimitive now id metadata :: later)
        ((record id observation moment).run s.database).1 =
          if sameName b.dateColumn b.createdAtColumn then .error (.backingStore none)
          else .ok () := by
  obtain ⟨b, hb, hlater⟩ := Session.exists_binding_after hok
  refine ⟨b, hb, fun later observation moment => ?_⟩
  obtain ⟨registrations, names, h⟩ :=
    Session.exists_holds_after (steps ++ .registerPrimitive now id metadata :: later)
  exact h.outcome_record (hlater later) observation moment

/-- Dates and moments may well go to each other's columns. -/
theorem Store.record_after_registerPrimitive_exchanged :
    let now := Clock.start.now
    let steps := [StoreStep.createTable "prices"]
    let metadata : Metadata := .ofList
      [("table_name", "PRICES"), ("date_column", "created_at"), ("created_at_column", "date_value")]
    ((registerPrimitive now "rent" metadata).run (Session.after steps).database).1 =
        .ok ⟨"rent", .primitive⟩ ∧
      ∀ later observation moment,
        let s := Session.after (steps ++ .registerPrimitive now "rent" metadata :: later)
        ((record "rent" observation moment).run s.database).1 = .ok () := by
  intro now steps metadata
  have hok : ((registerPrimitive now "rent" metadata).run (Session.after steps).database).1 =
      .ok ⟨"rent", .primitive⟩ := by decide +kernel
  obtain ⟨b, hb, hrecord⟩ := Store.record_after_registerPrimitive hok
  have hbinding : Binding.ofMetadata metadata (Session.after steps).database.schemas =
      .ok ⟨"PRICES", "created_at", "value", "date_value"⟩ := by decide +kernel
  rw [hbinding] at hb
  cases hb
  refine ⟨hok, fun later observation moment => ?_⟩
  exact (hrecord later observation moment).trans (if_neg (by decide))

/-- The registration is accepted, but the date would go to the column of the moment, and the column
of the date is left without a cell. -/
theorem Store.record_refused_in_shared_column :
    let now := Clock.start.now
    let metadata : Metadata := .ofList [("table_name", "prices"), ("date_column", "created_at")]
    let before := Session.after [.createTable "prices"]
    let after := before.perform (.registerPrimitive now "rent" metadata)
    ((registerPrimitive now "rent" metadata).run before.database).1 = .ok ⟨"rent", .primitive⟩ ∧
      ((record "rent" ⟨⟨2024, 1, 1, by decide⟩, 5⟩ now).run after.database).1 =
        .error (.backingStore none) := by
  decide +kernel

end TimeSeries
