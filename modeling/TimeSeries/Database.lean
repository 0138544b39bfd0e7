import TimeSeries.Database.Declaration
import TimeSeries.Sorted

/-!
A small relational database: tables of cells with declared columns, and named indexes on them. Names
are compared whatever the case of their ASCII letters, tables and indexes share one space of names,
and a statement that cannot be carried out is refused and changes nothing.
-/
namespace TimeSeries

abbrev Row := List Cell

structure Table where
  name : String
  columns : List Column
  /-- In the order of their numbers, or else in the order in which they were inserted. -/
  rows : List Row
  deriving DecidableEq

namespace Table

def cell (row : Row) (position : Nat) : Cell := row[position]?.getD .null

/-- The first column of a name, and its place. -/
def column? (t : Table) (name : String) : Option (Column × Nat) :=
  t.columns.zipIdx.find? fun (c, _) => Text.sameName c.name name

def schema (t : Table) : TableSchema := ⟨t.name, t.columns.map Column.schema⟩

/-- The row that gives some columns a cell each. Of two cells for one column the first counts, and
columns without one take their initial cell. Each column named must exist. -/
def rowOf? (t : Table) (given : List (String × Cell)) : Option Row :=
  if given.all fun (name, _) => (t.column? name).isSome then
    some <| t.columns.map fun c =>
      match given.find? fun (name, _) => Text.sameName name c.name with
      | some (_, cell) => c.store cell
      | none => c.store c.initial
  else none

/-! ## Numbered rows -/

/-- The place of the column that numbers the rows. -/
def numbering? (t : Table) : Option Nat := t.columns.findIdx? (·.numbering)

/-- One more than the largest number in a column, when it fits. -/
def next? (t : Table) (position : Nat) : Option Value :=
  let numbers := t.rows.filterMap fun row =>
    match cell row position with
    | .integer v => some v
    | _ => none
  match numbers.max? with
  | none => some 1
  | some largest => largest.add? 1

/-- A row with its number. Nothing but an integer is one. -/
def numbered? (t : Table) (row : Row) : Option Row :=
  match t.numbering? with
  | none => some row
  | some position =>
    match cell row position with
    | .null => (t.next? position).map fun v => row.set position (.integer v)
    | .integer _ => some row
    | _ => none

/-- A row in its place among the others. -/
def place (t : Table) (row : Row) : List Row :=
  match t.numbering? with
  | none => t.rows ++ [row]
  | some position =>
    Sorted.insert (fun a b => Cell.le (cell a position) (cell b position)) row t.rows

/-! ## Rows that may be added -/

/-- The two rows hold the same in a unique column. -/
def clash (t : Table) (row other : Row) : Bool :=
  (t.columns.zip (row.zip other)).any fun (c, a, b) => c.unique && c.same a b

/-- Whether a row may be added: of the right width, null only where that is allowed, and no clash
with another row. -/
def admits (t : Table) (row : Row) : Bool :=
  row.length == t.columns.length &&
    (t.columns.zip row).all (fun (c, cell) => !(c.notNull && cell == .null)) &&
    t.rows.all fun other => !t.clash row other

def add? (t : Table) (row : Row) : Option Table := do
  let row ← t.numbered? row
  if t.admits row then some { t with rows := t.place row } else none

/-- Add a row in place of those that it clashes with. -/
def replace? (t : Table) (row : Row) : Option Table := do
  let row ← t.numbered? row
  { t with rows := t.rows.filter fun other => !t.clash row other }.add? row

end Table

structure Index where
  name : String
  table : String
  columns : List String
  deriving DecidableEq

structure Database where
  tables : List Table
  indexes : List Index
  deriving DecidableEq

namespace Database

def empty : Database := ⟨[], []⟩

def table? (db : Database) (name : String) : Option Table :=
  db.tables.find? fun t => Text.sameName t.name name

def index? (db : Database) (name : String) : Option Index :=
  db.indexes.find? fun i => Text.sameName i.name name

/-- The start of the names that the database keeps for itself. -/
def reservedStart : List Char := "sqlite_".toList

def isReserved (name : String) : Bool := reservedStart.isPrefixOf (Text.lower name).toList

/-- A pairwise different set of column names. -/
def distinctNames : List Column → Bool
  | [] => true
  | c :: rest => !(rest.any fun d => Text.sameName c.name d.name) && distinctNames rest

def createTable? (db : Database) (name : String) (columns : List Column) : Option Database :=
  if isReserved name || (db.table? name).isSome || (db.index? name).isSome ||
      columns.isEmpty || !distinctNames columns || 1 < columns.countP (·.primary) then none
  else some { db with tables := db.tables ++ [⟨name, columns, []⟩] }

/-- A table with columns as they are declared. -/
def declareTable? (db : Database) (name : String) (columns : List (String × String)) :
    Option Database := do
  let columns ← columns.mapM fun (name, declaration) => Column.ofDeclaration? name declaration
  db.createTable? name columns

/-- A table that exists is left as it is, whatever its columns. -/
def ensureTable? (db : Database) (name : String) (columns : List Column) : Option Database :=
  if !isReserved name && (db.table? name).isSome then some db else db.createTable? name columns

/-- An index that exists is left as it is, whatever it is on. -/
def ensureIndex? (db : Database) (index : Index) : Option Database := do
  let table ← db.table? index.table
  if isReserved index.name || (db.table? index.name).isSome then none
  else if (db.index? index.name).isSome then some db
  else if index.columns.all fun c => (table.column? c).isSome then
    some { db with indexes := db.indexes ++ [index] }
  else none

/-- The indexes of a table go with it. -/
def dropTable? (db : Database) (name : String) : Option Database := do
  let _ ← db.table? name
  return {
    tables := db.tables.filter fun t => !Text.sameName t.name name
    indexes := db.indexes.filter fun i => !Text.sameName i.table name }

/-- Put a changed table in place of the one of its name. -/
def setTable (db : Database) (table : Table) : Database :=
  { db with tables := db.tables.map fun t => if t.name = table.name then table else t }

/-- A row of cells for all columns, in their order. -/
def insertCells? (db : Database) (name : String) (cells : List Cell) : Option Database := do
  let table ← db.table? name
  guard (cells.length = table.columns.length)
  return db.setTable (← table.add? (List.zipWith Column.store table.columns cells))

/-- A row that gives cells by column name. -/
def insert? (db : Database) (name : String) (given : List (String × Cell)) :
    Option Database := do
  let table ← db.table? name
  return db.setTable (← table.add? (← table.rowOf? given))

/-- A row that gives cells by column name, in place of those that it clashes with. -/
def replace? (db : Database) (name : String) (given : List (String × Cell)) :
    Option Database := do
  let table ← db.table? name
  return db.setTable (← table.replace? (← table.rowOf? given))

/-- A name with any character in place of the last one of the reserved start; introspection takes
such a table for one of the database's own, although it may have been created like any other. -/
def isHidden (name : String) : Bool :=
  let mark := reservedStart.dropLast
  mark.isPrefixOf (Text.lower name).toList && mark.length < name.length

/-- The tables that are not hidden, by name. -/
def schemas (db : Database) : List TableSchema :=
  let visible := db.tables.filter fun t => !isHidden t.name
  (Sorted.sort (fun a b => decide (a.name ≤ b.name)) visible).map Table.schema

end Database
end TimeSeries
