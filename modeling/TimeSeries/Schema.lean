import TimeSeries.Text.Ascii

/-!
Tables as registration sees them: names and the types of columns. Names are found whatever the case
of their ASCII letters.
-/
namespace TimeSeries

inductive ColumnType where
  | text
  | integer
  /-- Any other declaration, in the words of the store. -/
  | other (declared : String)
  deriving DecidableEq

namespace ColumnType

def label : ColumnType → String
  | text => "TEXT"
  | integer => "INTEGER"
  | other declared => declared

/-- Whether a word occurs anywhere among the characters. -/
def occurs (word : List Char) : List Char → Bool
  | [] => word.isEmpty
  | c :: cs => word.isPrefixOf (c :: cs) || occurs word cs

def mentions (word declared : String) : Bool := occurs word.toList declared.toList

/-- The type behind a declaration: integers first, then text; letter case does not matter. -/
def ofDeclaration (declared : String) : ColumnType :=
  let upper := Text.upper declared
  if mentions "INT" upper then integer
  else if mentions "CHAR" upper || mentions "CLOB" upper || mentions "TEXT" upper then text
  else other upper

example : ["bigint", "CHARINT", "nchar(3)", "POINT"].map ofDeclaration
    = [integer, integer, text, integer] := by decide
example : ofDeclaration "Decimal(10,5)" = other "DECIMAL(10,5)" := by decide

end ColumnType

structure ColumnSchema where
  name : String
  type : ColumnType
  deriving DecidableEq

structure TableSchema where
  name : String
  columns : List ColumnSchema
  deriving DecidableEq

namespace TableSchema

/-- The first column of a name. -/
def column? (t : TableSchema) (name : String) : Option ColumnSchema :=
  t.columns.find? fun c => Text.sameName c.name name

/-- The first table of a name. -/
def find? (tables : List TableSchema) (name : String) : Option TableSchema :=
  tables.find? fun t => Text.sameName t.name name

end TableSchema
end TimeSeries
