import TimeSeries.Database
import TimeSeries.Date.Text
import TimeSeries.Observation

/-!
Lookups of primitive series as selections from a table. Dates and moments of recording are compared
as the texts they are stored as, in the collating sequences of their columns. Of rows that the order
of a selection does not tell apart, the one that comes up first counts. Rows come up as they are
listed in the table, unless an index leads to them in another order.
-/
namespace TimeSeries

/-- The cells of a row that a lookup is about. -/
structure Entry where
  date : Cell
  value : Cell
  createdAt : Cell
  deriving DecidableEq

/-- The columns of these cells. -/
structure Columns where
  dates : Column
  values : Column
  moments : Column
  deriving DecidableEq

namespace Entry

/-- By date, and on one date the latest created first. -/
def ascending (c : Columns) (a b : Entry) : Bool :=
  c.dates.lt a.date b.date || c.dates.le a.date b.date && c.moments.le b.createdAt a.createdAt

/-- The latest date first, and on one date the latest created first. -/
def descending (c : Columns) (a b : Entry) : Bool :=
  c.dates.lt b.date a.date || c.dates.le b.date a.date && c.moments.le b.createdAt a.createdAt

/-- The latest created first. -/
def newest (c : Columns) (a b : Entry) : Bool := c.moments.le b.createdAt a.createdAt

/-- The first of a selection in an order; of entries that stand equal the one listed first. -/
def first? (before : Entry → Entry → Bool) : List Entry → Option Entry
  | [] => none
  | e :: rest =>
    match first? before rest with
    | none => some e
    | some best => if before e best then some e else some best

def isOn (c : Columns) (date : Date) (e : Entry) : Bool := c.dates.same e.date (.text date.text)

/-- Dated on or before a day; a null date is neither. -/
def isUpTo (c : Columns) (date : Date) (e : Entry) : Bool :=
  e.date != .null && c.dates.le e.date (.text date.text)

def isFrom (c : Columns) (date : Date) (e : Entry) : Bool :=
  e.date != .null && c.dates.le (.text date.text) e.date

/-- The entries that answer a lookup, given their columns, out of all entries as they come up. -/
def select (c : Columns) (lookup : Lookup) (entries : List Entry) : List Entry :=
  match lookup with
  | .base => (first? (ascending c) (entries.filter (c.values.isNonzero ·.value))).toList
  | .latest => (first? (descending c) entries).toList
  | .exact date => (first? (newest c) (entries.filter (isOn c date))).toList
  | .onOrBefore date => (first? (descending c) (entries.filter (isUpTo c date))).toList
  | .range first last =>
    Sorted.sort (ascending c) (entries.filter fun e => isFrom c first e && isUpTo c last e)

/-- The observation of an entry: its date is read loosely, and no cell may be of another type. -/
def recorded? (e : Entry) : Option Recorded :=
  match e with
  | ⟨.text date, .integer value, .text createdAt⟩ => do
    let date ← Date.ofLoose? .tight date
    return { date := date, value := value, createdAt := createdAt }
  | _ => none

end Entry

/-- The rows of a table by the cells of a column at a position. -/
def Table.rowsBy (t : Table) (column : Column) (position : Nat) : List Row :=
  Sorted.sort (fun a b => column.le (Table.cell a position) (Table.cell b position)) t.rows

/-- The way to the rows of a table for the lookups of a binding. -/
inductive Access where
  /-- Through the table. -/
  | listed
  /-- Through an index on the date and the moment of recording. -/
  | byDate
  /-- Through an index on the moment of recording and the date. -/
  | byMoment
  /-- Through an index on the date and a column, at a position, that does not hold the moment. -/
  | byDateAnd (column : Column) (position : Nat)
  deriving DecidableEq

/-- In which order the rows of a table come up for a lookup. Where a selection has no order of its
own a database is free to choose one, so of this one only that no row is left out or made up. -/
class Scan where
  rows : Access → Lookup → Table → List Row
  rows_perm (access : Access) (lookup : Lookup) (table : Table) :
    (rows access lookup table).Perm table.rows

namespace Access

/-- The rows of a table in the order of an index. It is followed backwards where the selection starts
at the latest date or moment, and not used for a selection that it does not have the order of. -/
def rows (access : Access) (lookup : Lookup) (table : Table) : List Row :=
  match access, lookup with
  | byDate, .latest | byDate, .exact _ | byDate, .onOrBefore _ | byMoment, .exact _ =>
    table.rows.reverse
  | byDateAnd column position, .exact _ | byDateAnd column position, .range _ _ =>
    table.rowsBy column position
  | byDateAnd column position, .onOrBefore _ => (table.rowsBy column position).reverse
  | _, _ => table.rows

theorem rows_perm (access : Access) (lookup : Lookup) (table : Table) :
    (access.rows lookup table).Perm table.rows := by
  have hreverse {rows : List Row} (h : rows.Perm table.rows) : rows.reverse.Perm table.rows :=
    rows.reverse_perm.trans h
  have hby (column : Column) (position : Nat) : (table.rowsBy column position).Perm table.rows :=
    Sorted.perm_sort _ _
  unfold rows
  split
  · exact hreverse (.refl _)
  · exact hreverse (.refl _)
  · exact hreverse (.refl _)
  · exact hreverse (.refl _)
  · exact hby _ _
  · exact hby _ _
  · exact hreverse (hby _ _)
  · exact .refl _

end Access

instance : Scan := ⟨Access.rows, Access.rows_perm⟩

/-- A table as it is seen through a binding: the three columns and their positions. -/
structure View extends Columns where
  table : Table
  date : Nat
  value : Nat
  createdAt : Nat
  deriving DecidableEq

/-- The cells of a row that a lookup is about. -/
def View.entry (v : View) (row : Row) : Entry :=
  ⟨Table.cell row v.date, Table.cell row v.value, Table.cell row v.createdAt⟩

namespace Database

/-- The view of a binding, none if the table or a column is missing. -/
def view? (db : Database) (b : Binding) : Option View := do
  let table ← db.table? b.table
  let (dates, date) ← table.column? b.dateColumn
  let (values, value) ← table.column? b.valueColumn
  let (moments, createdAt) ← table.column? b.createdAtColumn
  return ⟨⟨dates, values, moments⟩, table, date, value, createdAt⟩

/-- The way to the table of a binding, by the two columns of its index. -/
def access (db : Database) (b : Binding) (table : Table) : Access :=
  match db.indexes.find? fun i => Text.sameName i.table b.table with
  | some ⟨_, _, [first, second]⟩ =>
    if Text.sameName first b.dateColumn then
      if Text.sameName second b.createdAtColumn then .byDate
      else match table.column? second with
        | some (column, position) => .byDateAnd column position
        | none => .listed
    else if Text.sameName first b.createdAtColumn && Text.sameName second b.dateColumn then .byMoment
    else .listed
  | _ => .listed

/-- The answer to a lookup, none if the table or a column is missing or a selected row cannot be
read. -/
def lookup? [Scan] (db : Database) (b : Binding) (lookup : Lookup) : Option (List Recorded) := do
  let view ← db.view? b
  let rows := Scan.rows (db.access b view.table) lookup view.table
  (Entry.select view.toColumns lookup (rows.map view.entry)).mapM Entry.recorded?

def source [Scan] (db : Database) : Source := fun b lookup =>
  match db.lookup? b lookup with
  | some rows => .ok rows
  | none => .error none

end Database
end TimeSeries
