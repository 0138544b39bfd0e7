import TimeSeries.Codec
import TimeSeries.Database.Select
import TimeSeries.Evaluation
import TimeSeries.Instant

/-!
The store of series: a catalogue of definitions and the tables of the primitive ones, in one
database. Definitions are checked before they are written and never change afterwards. What the
database refuses is a failure of the store, without words of its own.
-/
namespace TimeSeries

namespace Store

/-! ## The catalogue table -/

def catalogueName : String := "series"

def catalogueColumns : List Column :=
  [{ name := "series_id", declared := "TEXT", primary := true, unique := true },
    { name := "kind", declared := "TEXT", notNull := true },
    { name := "definition_json", declared := "TEXT", notNull := true },
    { name := "registered_at", declared := "TEXT", notNull := true }]

/-- A database with a catalogue; one that it has already stays as it is. -/
def opened (db : Database) : Database :=
  (db.ensureTable? catalogueName catalogueColumns).getD db

/-- A store without tables or series. -/
def fresh : Database := opened .empty

/-- A row of the catalogue. -/
structure Entry where
  id : Cell
  kind : Cell
  definition : Cell

/-- The column of identifiers and its place, with the table; none if one of them is missing. -/
def identifierColumn? (db : Database) : Option (Table × Column × Nat) := do
  let table ← db.table? catalogueName
  return (table, ← table.column? "series_id")

/-- The rows of the catalogue, none if it is missing or lacks a column. -/
def entries? (db : Database) : Option (List Entry) := do
  let (table, _, id) ← identifierColumn? db
  let (_, kind) ← table.column? "kind"
  let (_, definition) ← table.column? "definition_json"
  return table.rows.map fun row =>
    ⟨Table.cell row id, Table.cell row kind, Table.cell row definition⟩

/-- Whether an identifier is in the catalogue, none if its identifiers are missing. -/
def isTaken? (db : Database) (id : SeriesId) : Option Bool := do
  let (table, column, position) ← identifierColumn? db
  return table.rows.any fun row => column.holds (Table.cell row position) id

/-- The definition that a row of the catalogue holds. -/
def Entry.series? (e : Entry) : Option Series :=
  match e with
  | ⟨.text _, .text _, .text definition⟩ => (Codec.series.read definition).toOption
  | _ => none

def kindOfName? (name : String) : Option SeriesKind :=
  if name = SeriesKind.primitive.name then some .primitive
  else if name = SeriesKind.composed.name then some .composed
  else none

def Entry.info? (e : Entry) : Option SeriesInfo :=
  match e with
  | ⟨.text id, .text kind, .text _⟩ => (kindOfName? kind).map fun kind => ⟨id, kind⟩
  | _ => none

/-- The first row under an identifier, if there is one; the outer none is a missing catalogue. -/
def entryUnder? (db : Database) (id : SeriesId) : Option (Option Entry) := do
  let (_, column, _) ← identifierColumn? db
  return (← entries? db).find? fun e => column.holds e.id id

/-- The definition under an identifier, or a failure to read it. -/
def definition (db : Database) (id : SeriesId) : Except (Option String) (Option Series) :=
  match entryUnder? db id with
  | none => .error none
  | some none => .ok none
  | some (some e) =>
    match e.series? with
    | some series => .ok (some series)
    | none => .error none

/-- The identifiers in the catalogue. -/
def identifiers (db : Database) : List SeriesId :=
  ((entries? db).getD []).filterMap fun e =>
    match e.id with
    | .text id => some id
    | _ => none

theorem mem_entries_of_entryUnder? {db : Database} {id : SeriesId} {e : Entry}
    (h : entryUnder? db id = some (some e)) :
    e ∈ (entries? db).getD [] ∧ ∃ column : Column, column.holds e.id id = true := by
  simp only [entryUnder?, Option.bind_eq_bind, Option.bind_eq_some_iff, Option.pure_def,
    Option.some.injEq] at h
  obtain ⟨⟨_, column, _⟩, _, es, hes, hfind⟩ := h
  have hid := List.find?_some hfind
  exact ⟨by simpa [hes] using List.mem_of_find?_eq_some hfind, column, hid⟩

/-- A row with a definition that can be read has a text for its identifier. -/
theorem Entry.exists_text_of_series? {e : Entry} {series : Series}
    (h : e.series? = some series) : ∃ id, e.id = .text id := by
  unfold series? at h
  split at h
  · exact ⟨_, rfl⟩
  · cases h

theorem mem_identifiers {db : Database} {id : SeriesId} {series : Series}
    (h : definition db id = .ok (some series)) : id ∈ identifiers db := by
  unfold definition at h
  split at h
  · cases h
  · cases h
  · next e he =>
    obtain ⟨hmem, column, hid⟩ := mem_entries_of_entryUnder? he
    cases hs : e.series? with
    | none => simp [hs] at h
    | some series' =>
      obtain ⟨id', hid'⟩ := e.exists_text_of_series? hs
      rw [hid'] at hid
      exact List.mem_filterMap.2 ⟨e, hmem, by simp [hid', Column.eq_of_holds_text hid]⟩

def catalogue (db : Database) : Catalogue where
  definition := definition db
  registered := identifiers db
  mem_registered := mem_identifiers

/-! ## Reading -/

/-- The answer of a series to a query. -/
def call [Scan] (db : Database) (id : SeriesId) (method : Method) (query : Query) :
    Except Error (List Observation) :=
  ((catalogue db).evaluate db.source id method query).outcome

/-- Every registered series, by identifier. -/
def list (db : Database) : Except Error (List SeriesInfo) := do
  let some entries := entries? db | throw (.backingStore none)
  let sorted := Sorted.sort (fun a b => Cell.le a.id b.id) entries
  match sorted.mapM Entry.info? with
  | some infos => return infos
  | none => throw (.backingStore none)

/-! ## Writing -/

end Store

/-- A step on the database. -/
abbrev StoreAction := Stateful Database

namespace Store

/-- Go on with a result that does not depend on the database. -/
def check {α : Type} (r : Except Error α) : StoreAction α := ExceptT.mk (pure r)

/-- Carry out a statement, unless the database refuses it. -/
def execute (statement : Database → Option Database) : StoreAction Unit := do
  match statement (← get) with
  | some db => set db
  | none => throw (.backingStore none)

/-- The columns of a provisioned table. -/
def primitiveColumns : List Column :=
  [{ name := "date_value", declared := "TEXT", notNull := true },
    { name := "value", declared := "INTEGER", notNull := true },
    { name := "created_at", declared := "TEXT", notNull := true }]

/-- The index of a provisioned table. -/
def dateIndex (table : String) : Index :=
  ⟨table ++ "_date_idx", table, ["date_value", "created_at"]⟩

/-- Provision a table for a primitive series, and its index. -/
def createPrimitiveTable (table : String) : StoreAction Unit := do
  check (ensureIdentifier table)
  execute (·.ensureTable? table primitiveColumns)
  execute (·.ensureIndex? (dateIndex table))

/-- Write a definition under an identifier that has none. -/
def insertDefinition (now : Instant) (id : SeriesId) (series : Series) :
    StoreAction SeriesInfo := do
  match isTaken? (← get) id with
  | none => throw (.backingStore none)
  | some true => throw (.seriesExists id)
  | some false =>
    execute (·.insert? catalogueName
      [("series_id", .text id), ("kind", .text series.kind.name),
        ("definition_json", .text (Codec.series.write series)),
        ("registered_at", .text now.stamp)])
    return ⟨id, series.kind⟩

/-- Register a series on a table, checked against the tables that there are. -/
def registerPrimitive (now : Instant) (id : SeriesId) (metadata : Metadata) :
    StoreAction SeriesInfo := do
  let binding ← check (Binding.ofMetadata metadata (← get).schemas)
  insertDefinition now id (.primitive binding)

/-- Register a composition. Its constituents are looked for when it is called. -/
def registerComposed (now : Instant) (id : SeriesId) (metadata : Metadata) :
    StoreAction SeriesInfo := do
  let composition ← check (Composition.ofMetadata metadata)
  insertDefinition now id (.composed composition)

/-- Add an observation to a primitive series, recorded at a moment. -/
def record (id : SeriesId) (observation : Observation) (moment : Instant) : StoreAction Unit := do
  match definition (← get) id with
  | .error detail => throw (.backingStore detail)
  | .ok none => throw (.unknownSeries id)
  | .ok (some (.composed _)) => throw (.notPrimitive id)
  | .ok (some (.primitive binding)) =>
    execute (·.insert? binding.table
      [(binding.dateColumn, .text observation.date.text),
        (binding.valueColumn, .integer observation.value),
        (binding.createdAtColumn, .text moment.stamp)])

/-- Write a row of the catalogue unchecked, in place of an earlier one under its identifier. -/
def replaceDefinition (now : Instant) (id : SeriesId) (kind definition : String) :
    StoreAction Unit :=
  execute (·.replace? catalogueName
    [("series_id", .text id), ("kind", .text kind), ("definition_json", .text definition),
      ("registered_at", .text now.stamp)])

end Store
end TimeSeries
