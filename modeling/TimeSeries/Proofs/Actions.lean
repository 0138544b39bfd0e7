import TimeSeries.Proofs.Layout

/-!
What the steps of a store answer, and what they do to a database that is laid out as a store lays it
out. A step that fails leaves the tables as they are, or has only provisioned one.
-/
namespace TimeSeries

open Text (sameName)

/-- An observation that was recorded under a binding. -/
structure Posting where
  binding : Binding
  observation : Observation
  moment : Instant
  deriving DecidableEq

namespace Posting

/-- The cells of a posting by the columns of its binding. -/
def given (p : Posting) : List (String × Cell) :=
  [(p.binding.dateColumn, .text p.observation.date.text),
    (p.binding.valueColumn, .integer p.observation.value),
    (p.binding.createdAtColumn, .text p.moment.stamp)]

def row (p : Posting) : Row := Database.Layout.primitiveRow p.given

/-- Whether a posting went to a table. -/
def isIn (p : Posting) (table : String) : Bool := sameName table p.binding.table

end Posting

namespace StoreAction

variable {α : Type}

theorem run_get (db : Database) : (get : StoreAction Database).run db = (.ok db, db) := rfl

theorem run_check (r : Except Error α) (db : Database) : (Store.check r).run db = (r, db) := rfl

theorem run_execute (statement : Database → Option Database) (db : Database) :
    (Store.execute statement).run db = match statement db with
      | some db' => (.ok (), db')
      | none => (.error (.backingStore none), db) := by
  show ExceptT.run (match statement db with
    | some db' => (set db' : StoreAction Unit)
    | none => throw (.backingStore none)) db = _
  cases statement db <;> rfl

end StoreAction

open Stateful StoreAction Database.Layout

namespace Database

section Ensuring
variable {db db' : Database}

/-- A table is there already, or it is new and its name was free. -/
theorem ensureTable?_cases {name : String} {columns : List Column}
    (h : db.ensureTable? name columns = some db') : isReserved name = false ∧
      (db' = db ∧ (db.table? name).isSome = true ∨
        db.table? name = none ∧ db.index? name = none ∧
          db' = { db with tables := db.tables ++ [⟨name, columns, []⟩] }) := by
  rw [ensureTable?] at h
  split at h
  · next hthere =>
    obtain ⟨hreserved, hthere⟩ := Bool.and_eq_true_iff.1 hthere
    exact ⟨by simpa using hreserved, .inl ⟨(Option.some.inj h).symm, hthere⟩⟩
  · rw [createTable?] at h
    split at h
    · cases h
    · next hnew =>
      simp only [Bool.or_eq_true, not_or, Bool.not_eq_true, Option.isSome_eq_false_iff,
        Option.isNone_iff_eq_none] at hnew
      obtain ⟨⟨⟨⟨⟨hreserved, htable⟩, hindex⟩, -⟩, -⟩, -⟩ := hnew
      exact ⟨hreserved, .inr ⟨htable, hindex, (Option.some.inj h).symm⟩⟩

/-- An index is there already, or it is on columns that its table has; no table has its name. -/
theorem ensureIndex?_cases {index : Index} (h : db.ensureIndex? index = some db') :
    isReserved index.name = false ∧ db.table? index.name = none ∧
      ∃ t, db.table? index.table = some t ∧
        (db' = db ∧ (db.index? index.name).isSome = true ∨
          (∀ c ∈ index.columns, (t.column? c).isSome = true) ∧
            db' = { db with indexes := db.indexes ++ [index] }) := by
  rw [ensureIndex?] at h
  obtain ⟨t, ht, h⟩ := Option.bind_eq_some_iff.1 h
  split at h
  · cases h
  · next hfree =>
    simp only [Bool.or_eq_true, not_or, Bool.not_eq_true, Option.isSome_eq_false_iff,
      Option.isNone_iff_eq_none] at hfree
    refine ⟨hfree.1, hfree.2, t, ht, ?_⟩
    split at h
    · next hindex => exact .inl ⟨(Option.some.inj h).symm, hindex⟩
    · split at h
      · next hall => exact .inr ⟨List.all_eq_true.1 hall, (Option.some.inj h).symm⟩
      · cases h

end Ensuring

end Database

/-- A store that is opened again is as it was. -/
theorem Database.Layout.opened_eq {db : Database} {registrations : List Registration}
    {names : List String} {rows : String → List Row} (h : db.Layout registrations names rows) :
    Store.opened db = db := by
  rw [Store.opened, ensureTable?, h.table?_catalogue]
  rfl

namespace Store

variable {db : Database} {registrations : List Registration} {names : List String}
  {rows : String → List Row}

theorem run_createPrimitiveTable (db : Database) (table : String) :
    (createPrimitiveTable table).run db = match ensureIdentifier table with
      | .error e => (.error e, db)
      | .ok _ => match db.ensureTable? table primitiveColumns with
        | none => (.error (.backingStore none), db)
        | some db' => match db'.ensureIndex? (dateIndex table) with
          | none => (.error (.backingStore none), db')
          | some db'' => (.ok (), db'') := by
  rw [createPrimitiveTable, run_bind, run_check]
  cases ensureIdentifier table with
  | error e => rfl
  | ok =>
    dsimp only
    rw [run_bind, run_execute]
    cases db.ensureTable? table primitiveColumns with
    | none => rfl
    | some db' =>
      dsimp only
      rw [run_execute]
      cases db'.ensureIndex? (dateIndex table) <;> rfl

/-- Provisioning is refused before the database is touched, or else the table is ensured, and then
its index or not. -/
theorem run_createPrimitiveTable_cases (db : Database) (table : String) :
    let result := (createPrimitiveTable table).run db
    (∃ e, result = (.error e, db)) ∨
      ensureIdentifier table = .ok () ∧ ∃ db', db.ensureTable? table primitiveColumns = some db' ∧
        (db'.ensureIndex? (dateIndex table) = none ∧ result = (.error (.backingStore none), db') ∨
          ∃ db'', db'.ensureIndex? (dateIndex table) = some db'' ∧ result = (.ok (), db'')) := by
  intro result
  have hrun : result = _ := run_createPrimitiveTable db table
  cases hname : ensureIdentifier table with
  | error e =>
    rw [hname] at hrun
    exact .inl ⟨e, hrun⟩
  | ok =>
    rw [hname] at hrun
    cases htable : db.ensureTable? table primitiveColumns with
    | none =>
      rw [htable] at hrun
      exact .inl ⟨_, hrun⟩
    | some db' =>
      rw [htable] at hrun
      dsimp only at hrun
      refine .inr ⟨rfl, db', rfl, ?_⟩
      cases hindex : db'.ensureIndex? (dateIndex table) with
      | none =>
        rw [hindex] at hrun
        exact .inl ⟨rfl, hrun⟩
      | some db'' =>
        rw [hindex] at hrun
        exact .inr ⟨db'', rfl, hrun⟩

/-- Provisioning adds one table at most, which comes last and is empty. -/
theorem tables_createPrimitiveTable (db : Database) (table : String) :
    ((createPrimitiveTable table).run db).2.tables = db.tables ∨
      db.table? table = none ∧ ((createPrimitiveTable table).run db).2.tables =
        db.tables ++ [primitiveTable table []] := by
  have htables {db' : Database} (h : db.ensureTable? table primitiveColumns = some db') :
      db'.tables = db.tables ∨
        db.table? table = none ∧ db'.tables = db.tables ++ [primitiveTable table []] := by
    obtain ⟨-, ⟨rfl, -⟩ | ⟨hnew, -, rfl⟩⟩ := Database.ensureTable?_cases h
    · exact .inl rfl
    · exact .inr ⟨hnew, rfl⟩
  rcases run_createPrimitiveTable_cases db table with
    ⟨e, hrun⟩ | ⟨-, db', htable, ⟨-, hrun⟩ | ⟨db'', hindex, hrun⟩⟩ <;> rw [hrun]
  · exact .inl rfl
  · exact htables htable
  · obtain ⟨-, -, t, -, ⟨rfl, -⟩ | ⟨-, rfl⟩⟩ := Database.ensureIndex?_cases hindex
    · exact htables htable
    · show db'.tables = db.tables ∨ db.table? table = none ∧ db'.tables = _
      exact htables htable

theorem exists_layout_createPrimitiveTable (h : db.Layout registrations names rows) {table : String}
    (hrows : db.table? table = none → rows table = []) :
    ∃ names', names ⊆ names' ∧
      ((createPrimitiveTable table).run db).2.Layout registrations names' rows := by
  rcases tables_createPrimitiveTable db table with htables | ⟨hnew, htables⟩
  · exact ⟨names, List.Subset.refl names, h.layout_of_tables htables⟩
  · exact ⟨_, List.subset_append_left names [table], h.layout_create hnew (hrows hnew) htables⟩

theorem run_insertDefinition (db : Database) (now : Instant) (id : SeriesId) (series : Series) :
    (insertDefinition now id series).run db = match isTaken? db id with
      | none => (.error (.backingStore none), db)
      | some true => (.error (.seriesExists id), db)
      | some false =>
        match db.insert? catalogueName (Registration.given ⟨id, series, now.stamp⟩) with
        | some db' => (.ok ⟨id, series.kind⟩, db')
        | none => (.error (.backingStore none), db) := by
  show ExceptT.run ((match isTaken? db id with
    | none => throw (.backingStore none)
    | some true => throw (.seriesExists id)
    | some false => do
      execute (·.insert? catalogueName (Registration.given ⟨id, series, now.stamp⟩))
      return ⟨id, series.kind⟩) : StoreAction SeriesInfo) db = _
  cases isTaken? db id with
  | none => rfl
  | some taken =>
    cases taken with
    | true => rfl
    | false =>
      dsimp only
      rw [run_bind, run_execute]
      cases db.insert? catalogueName (Registration.given ⟨id, series, now.stamp⟩) <;> rfl

section Registering
variable (h : db.Layout registrations names rows)
include h

theorem run_insertDefinition_of_taken (now : Instant) {id : SeriesId} (series : Series)
    (htaken : registered? registrations id ≠ none) :
    (insertDefinition now id series).run db = (.error (.seriesExists id), db) := by
  rw [run_insertDefinition, h.isTaken?_eq, Option.isSome_iff_ne_none.2 htaken]

/-- A definition under a new identifier is written to the catalogue. -/
theorem run_insertDefinition_of_new (now : Instant) {id : SeriesId} (series : Series)
    (hnew : registered? registrations id = none) :
    ∃ db', (insertDefinition now id series).run db = (.ok ⟨id, series.kind⟩, db') ∧
      db'.Layout (registrations ++ [⟨id, series, now.stamp⟩]) names rows := by
  obtain ⟨db', hinsert, hlayout⟩ := h.exists_insert_registration (r := ⟨id, series, now.stamp⟩)
    (registered?_eq_none_iff.1 hnew)
  refine ⟨db', ?_, hlayout⟩
  rw [run_insertDefinition, h.isTaken?_eq, hnew, hinsert]
  rfl

end Registering

theorem run_registerPrimitive (db : Database) (now : Instant) (id : SeriesId) (metadata : Metadata) :
    (registerPrimitive now id metadata).run db = match Binding.ofMetadata metadata db.schemas with
      | .error e => (.error e, db)
      | .ok b => (insertDefinition now id (.primitive b)).run db := by
  show (check (Binding.ofMetadata metadata db.schemas) >>= fun b =>
    insertDefinition now id (.primitive b)).run db = _
  rw [run_bind, run_check]
  cases Binding.ofMetadata metadata db.schemas <;> rfl

theorem run_registerComposed (db : Database) (now : Instant) (id : SeriesId) (metadata : Metadata) :
    (registerComposed now id metadata).run db = match Composition.ofMetadata metadata with
      | .error e => (.error e, db)
      | .ok c => (insertDefinition now id (.composed c)).run db := by
  show (check (Composition.ofMetadata metadata) >>= fun c =>
    insertDefinition now id (.composed c)).run db = _
  rw [run_bind, run_check]
  cases Composition.ofMetadata metadata <;> rfl

/-- What recording does with the definition under an identifier. -/
theorem run_record (h : db.Layout registrations names rows) (id : SeriesId)
    (observation : Observation) (moment : Instant) :
    (record id observation moment).run db = match registered? registrations id with
      | none => (.error (.unknownSeries id), db)
      | some (.composed _) => (.error (.notPrimitive id), db)
      | some (.primitive b) =>
        match db.insert? b.table (Posting.given ⟨b, observation, moment⟩) with
        | some db' => (.ok (), db')
        | none => (.error (.backingStore none), db) := by
  unfold record
  rw [run_bind, run_get]
  dsimp only
  rw [h.definition_eq]
  cases registered? registrations id with
  | none => rfl
  | some series =>
    cases series with
    | composed c => rfl
    | primitive b => exact run_execute _ db

end Store
end TimeSeries
