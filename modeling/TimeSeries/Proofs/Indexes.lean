import TimeSeries.Proofs.Sessions

/-!
The indexes of a store. Each one belongs to a provisioned table, and the catalogue never gets one:
it lacks the columns. An index of the right name is taken for the one asked for, whatever it is on,
and so it takes all runs to see that provisioning under the name of the catalogue always fails.
-/
namespace TimeSeries

open Text (sameName)
open Store Database.Layout

theorem Text.sameName_append (s t suffix : String) :
    sameName (s ++ suffix) (t ++ suffix) = sameName s t := by
  rw [Bool.eq_iff_iff]
  simp [sameName, lower, String.ofList_inj]

namespace Database

variable {db db' : Database}

theorem indexes_insert? {name : String} {given : List (String × Cell)}
    (h : db.insert? name given = some db') : db'.indexes = db.indexes := by
  rw [insert?] at h
  obtain ⟨table, -, h⟩ := Option.bind_eq_some_iff.1 h
  obtain ⟨row, -, h⟩ := Option.bind_eq_some_iff.1 h
  obtain ⟨table', -, h⟩ := Option.bind_eq_some_iff.1 h
  rw [← Option.some.inj h]
  rfl

theorem indexes_ensureTable? {name : String} {columns : List Column}
    (h : db.ensureTable? name columns = some db') : db'.indexes = db.indexes := by
  obtain ⟨-, ⟨rfl, -⟩ | ⟨-, -, rfl⟩⟩ := ensureTable?_cases h <;> rfl

/-- Every index is that of a provisioned table, and none is on the catalogue. -/
def DateIndexed (db : Database) : Prop :=
  ∀ i ∈ db.indexes, ∃ table, i = dateIndex table ∧ sameName catalogueName table = false

theorem DateIndexed.of_indexes (h : db.DateIndexed) (hindexes : db'.indexes = db.indexes) :
    db'.DateIndexed := by
  rw [DateIndexed, hindexes]
  exact h

variable {registrations : List Registration} {names : List String} {rows : String → List Row}

/-- Only the table itself has columns for the index of a provisioned table. -/
theorem Layout.not_sameName_of_column (h : db.Layout registrations names rows) {name : String}
    {t : Table} (ht : db.table? name = some t) (hcolumn : (t.column? "date_value").isSome = true) :
    sameName catalogueName name = false := by
  by_contra hname
  have hname : sameName catalogueName name = true := Bool.not_eq_false _ ▸ hname
  rw [h.table?_eq_some h.mem_catalogue hname] at ht
  cases ht
  have hnone : (catalogueTable registrations).column? "date_value" = none :=
    (by decide : (catalogueTable []).column? "date_value" = none)
  rw [hnone] at hcolumn
  cases hcolumn

end Database

namespace Store

variable {db : Database} {table : String} {registrations : List Registration} {names : List String}
  {rows : String → List Row}

/-- Provisioning that fails leaves the indexes alone. After one that succeeds there is a table, with
an index of the right name from before or else with the columns for a new one. -/
theorem createPrimitiveTable_cases (db : Database) (table : String) :
    let result := (createPrimitiveTable table).run db
    result.1 ≠ .ok () ∧ result.2.indexes = db.indexes ∨
      ensureIdentifier table = .ok () ∧ ∃ t, result.2.table? table = some t ∧
        (result.2.indexes = db.indexes ∧
            (∃ i ∈ db.indexes, sameName i.name (dateIndex table).name = true) ∨
          result.2.indexes = db.indexes ++ [dateIndex table] ∧
            (t.column? "date_value").isSome = true) := by
  rcases run_createPrimitiveTable_cases db table with
    ⟨e, hrun⟩ | ⟨hname, db', htable, ⟨-, hrun⟩ | ⟨db'', hindex, hrun⟩⟩ <;> rw [hrun]
  · exact .inl ⟨nofun, rfl⟩
  · exact .inl ⟨nofun, Database.indexes_ensureTable? htable⟩
  · have hindexes := Database.indexes_ensureTable? htable
    refine .inr ⟨hname, ?_⟩
    obtain ⟨-, -, t, ht, ⟨rfl, hthere⟩ | ⟨hcolumns, rfl⟩⟩ := Database.ensureIndex?_cases hindex
    · obtain ⟨i, hi⟩ := Option.isSome_iff_exists.1 hthere
      have hsame := List.find?_some
        (p := fun i : Index => sameName i.name (dateIndex table).name) hi
      have hmem : i ∈ db.indexes := hindexes ▸ List.mem_of_find?_eq_some hi
      exact ⟨t, ht, .inl ⟨hindexes, i, hmem, hsame⟩⟩
    · have hcolumn := hcolumns "date_value" (by simp [dateIndex])
      exact ⟨t, ht, .inr ⟨congrArg (· ++ [dateIndex table]) hindexes, hcolumn⟩⟩

section Provisioned
variable (hlayout : ((createPrimitiveTable table).run db).2.Layout registrations names rows)
  (hindexed : db.DateIndexed)
include hlayout hindexed

/-- The catalogue cannot be provisioned, although a table of its name exists. -/
theorem not_sameName_of_createPrimitiveTable
    (hok : ((createPrimitiveTable table).run db).1 = .ok ()) :
    sameName catalogueName table = false := by
  rcases createPrimitiveTable_cases db table with
    ⟨hnot, -⟩ | ⟨-, t, ht, ⟨-, i, hi, hsame⟩ | ⟨-, hcolumn⟩⟩
  · exact absurd hok hnot
  · obtain ⟨other, rfl, hother⟩ := hindexed i hi
    have hsame : sameName other table = true := (Text.sameName_append _ _ _).symm.trans hsame
    rw [Text.sameName_comm, ← Text.sameName_congr hsame, Text.sameName_comm] at hother
    exact hother
  · exact hlayout.not_sameName_of_column ht hcolumn

theorem dateIndexed_createPrimitiveTable : ((createPrimitiveTable table).run db).2.DateIndexed := by
  rcases createPrimitiveTable_cases db table with
    ⟨-, hindexes⟩ | ⟨-, t, ht, ⟨hindexes, -⟩ | ⟨hindexes, hcolumn⟩⟩
  · exact hindexed.of_indexes hindexes
  · exact hindexed.of_indexes hindexes
  · intro i hi
    rw [hindexes] at hi
    rcases List.mem_append.1 hi with hi | hi
    · exact hindexed i hi
    · exact ⟨table, List.mem_singleton.1 hi, hlayout.not_sameName_of_column ht hcolumn⟩

/-- A table that is provisioned is one of the provisioned tables. -/
theorem exists_name_of_createPrimitiveTable
    (hok : ((createPrimitiveTable table).run db).1 = .ok ()) :
    ∃ n ∈ names, sameName n table = true := by
  have hcatalogue := not_sameName_of_createPrimitiveTable hlayout hindexed hok
  rcases createPrimitiveTable_cases db table with ⟨hnot, -⟩ | ⟨-, t, ht, -⟩
  · exact absurd hok hnot
  · have hsame := List.find?_some (p := fun t : Table => sameName t.name table) ht
    rcases hlayout.cases_table (List.mem_of_find?_eq_some ht) with rfl | ⟨n, hn, rfl⟩
    · exact absurd (hcatalogue.symm.trans hsame) (by decide)
    · exact ⟨n, hn, hsame⟩

end Provisioned

theorem indexes_insertDefinition (db : Database) (now : Instant) (id : SeriesId) (series : Series) :
    ((insertDefinition now id series).run db).2.indexes = db.indexes := by
  rw [run_insertDefinition]
  cases isTaken? db id with
  | none => rfl
  | some taken =>
    cases taken with
    | true => rfl
    | false =>
      dsimp only
      cases hinsert : db.insert? catalogueName (Registration.given ⟨id, series, now.stamp⟩) with
      | none => rfl
      | some db' => exact Database.indexes_insert? hinsert

theorem indexes_record (h : db.Layout registrations names rows) (id : SeriesId)
    (observation : Observation) (moment : Instant) :
    ((record id observation moment).run db).2.indexes = db.indexes := by
  rw [run_record h]
  cases registered? registrations id with
  | none => rfl
  | some series =>
    cases series with
    | composed c => rfl
    | primitive b =>
      dsimp only
      cases hinsert : db.insert? b.table (Posting.given ⟨b, observation, moment⟩) with
      | none => rfl
      | some db' => exact Database.indexes_insert? hinsert

theorem indexes_opened (db : Database) : (opened db).indexes = db.indexes := by
  rw [opened]
  cases htable : db.ensureTable? catalogueName catalogueColumns with
  | none => rfl
  | some db' => exact Database.indexes_ensureTable? htable

end Store

namespace Session

variable {s : Session} {registrations : List Registration} {names : List String}

theorem database_keep (s : Session) (id : SeriesId) (series : Except Error Series)
    (result : Except Error SeriesInfo × Database) :
    (s.keep id series result).database = result.2 := by
  unfold Session.keep
  split <;> rfl

theorem database_post (s : Session) (id : SeriesId) (observation : Observation) (moment : Instant)
    (result : Except Error Unit × Database) :
    (s.post id observation moment result).database = result.2 := by
  unfold post
  split <;> rfl

/-- Only provisioning makes indexes. -/
theorem Holds.indexes_perform (h : s.Holds registrations names) {step : StoreStep}
    (hstep : ∀ table, step ≠ .createTable table) :
    (s.perform step).database.indexes = s.database.indexes := by
  cases step with
  | createTable table => exact absurd rfl (hstep table)
  | registerPrimitive now id metadata =>
    rw [Session.perform, database_keep, run_registerPrimitive]
    cases Binding.ofMetadata metadata s.database.schemas with
    | error e => rfl
    | ok b => exact indexes_insertDefinition s.database now id (.primitive b)
  | registerComposed now id metadata =>
    rw [Session.perform, database_keep, run_registerComposed]
    cases Composition.ofMetadata metadata with
    | error e => rfl
    | ok c => exact indexes_insertDefinition s.database now id (.composed c)
  | record id observation moment =>
    rw [Session.perform, database_post]
    exact indexes_record h.layout id observation moment
  | list => rfl
  | call id method query => rfl
  | reopen => exact indexes_opened s.database

theorem Holds.dateIndexed_perform (h : s.Holds registrations names)
    (hindexed : s.database.DateIndexed) (step : StoreStep) :
    (s.perform step).database.DateIndexed := by
  by_cases hstep : ∃ table, step = .createTable table
  · obtain ⟨table, rfl⟩ := hstep
    obtain ⟨names', h'⟩ := h.createTable table
    exact dateIndexed_createPrimitiveTable h'.layout hindexed
  · exact hindexed.of_indexes (h.indexes_perform (not_exists.1 hstep))

/-- No run puts an index on the catalogue. -/
theorem dateIndexed_after (steps : List StoreStep) : (after steps).database.DateIndexed := by
  have hstart : (after []).database.DateIndexed := nofun
  exact after_append_induction (P := (·.database.DateIndexed)) hstart Holds.dateIndexed_perform steps

end Session

end TimeSeries
