import TimeSeries.Error
import TimeSeries.SortedMap

/-!
Where a primitive series lives: one table with a textual date column, an integer value column and a
textual column for the moment of recording. A binding is made once, from registration metadata, and
checked against the tables that exist.
-/
namespace TimeSeries

/-- Names and texts given at registration. -/
abbrev Metadata := SortedMap String String

/-- Names go into statements to the store, so only plain identifiers are let through. -/
def ensureIdentifier (name : String) : Except Error Unit :=
  if Text.isIdentifier name then .ok () else .error (.invalidIdentifier name)

structure Binding where
  table : String
  dateColumn : String
  valueColumn : String
  createdAtColumn : String
  deriving DecidableEq

namespace Binding

/-- The binding to a table with the column names that tables are provisioned with. -/
def standard (table : String) : Binding := ⟨table, "date_value", "value", "created_at"⟩

/-- The four names, in the order in which they are looked at. -/
def names (b : Binding) : List String :=
  [b.table, b.dateColumn, b.valueColumn, b.createdAtColumn]

/-- A column of the name exists and has the type that its role needs. -/
def checkColumn (table : TableSchema) (role column : String) (expected : ColumnType) :
    Except Error Unit :=
  match table.column? column with
  | none => .error (.columnNotFound role column)
  | some found =>
    if found.type = expected then .ok ()
    else .error (.columnTypeMismatch role column expected found.type)

def validate (b : Binding) (tables : List TableSchema) : Except Error Unit := do
  b.names.forM ensureIdentifier
  match TableSchema.find? tables b.table with
  | none => throw (.tableNotFound b.table)
  | some table =>
    checkColumn table "date" b.dateColumn .text
    checkColumn table "value" b.valueColumn .integer
    checkColumn table "created_at" b.createdAtColumn .text

/-- Only `table_name` must be given; the columns have default names. -/
def ofMetadata (metadata : Metadata) (tables : List TableSchema) : Except Error Binding := do
  let some table := metadata.find? "table_name" | throw .missingTable
  let default := standard table
  let binding : Binding := {
    table := table
    dateColumn := (metadata.find? "date_column").getD default.dateColumn
    valueColumn := (metadata.find? "value_column").getD default.valueColumn
    createdAtColumn := (metadata.find? "created_at_column").getD default.createdAtColumn }
  binding.validate tables
  return binding

end Binding
end TimeSeries
