import TimeSeries.Catalogue
import TimeSeries.Json.Basic
import TimeSeries.Json.Shape
import TimeSeries.Query

/-!
The JSON forms of definitions, observations and results. Each form is a shape that text must have, a
way to write a value in that shape, and a way to take a value of that shape apart again.
-/
namespace TimeSeries

structure Codec (α : Type) where
  shape : Json.Shape
  encode : α → Json
  /-- Takes a value of the shape, in normal form, apart. -/
  decode? : Json → Option α

namespace Codec

open Json (Shape)

variable {α : Type}

/-- The compact text of a value. -/
def write (c : Codec α) (a : α) : String := (c.encode a).compact

/-- The value of a text of the shape. -/
def read (c : Codec α) (text : String) : Except Json.Fault α := do
  let j ← c.shape.ofText text
  match c.decode? j with
  | some a => return a
  | none => throw .mismatched

/-- A field that must be given. -/
def required (name : String) (shape : Shape) : String × Shape × Option Json := (name, shape, none)

def text : Codec String where
  shape := .string
  encode := .string
  decode?
    | .string s => some s
    | _ => none

def value : Codec Value where
  shape := .int64
  encode v := .integer v.toInt
  decode?
    | .integer n => Value.ofInt? n
    | _ => none

def date : Codec Date where
  shape := .date
  encode d := .string d.text
  decode?
    | .string s => Date.ofLoose? .wide s
    | _ => none

def list (item : Codec α) : Codec (List α) where
  shape := .list item.shape
  encode as := .array (as.map item.encode)
  decode?
    | .array items => items.mapM item.decode?
    | _ => none

def method : Codec Method where
  shape := .choice ["value", "index"]
  encode
    | .value => .string "value"
    | .index => .string "index"
  decode?
    | .string "value" => some .value
    | .string "index" => some .index
    | _ => none

def kind : Codec SeriesKind where
  shape := .choice ["primitive", "composed"]
  encode k := .string k.name
  decode?
    | .string "primitive" => some .primitive
    | .string "composed" => some .composed
    | _ => none

def seriesInfo : Codec SeriesInfo where
  shape := .record [required "id" .string, required "kind" kind.shape]
  encode info := .object [("id", .string info.id), ("kind", kind.encode info.kind)]
  decode?
    | .object [(_, .string id), (_, k)] => (kind.decode? k).map fun k => ⟨id, k⟩
    | _ => none

def observation : Codec Observation where
  shape := .record [required "date" .date, required "value" .int64]
  encode o := .object [("date", date.encode o.date), ("value", value.encode o.value)]
  decode?
    | .object [(_, d), (_, v)] => do return ⟨← date.decode? d, ← value.decode? v⟩
    | _ => none

def constituent : Codec Constituent where
  shape := .record [required "id" .string, required "weight" .int64]
  encode c := .object [("id", .string c.id), ("weight", value.encode c.weight)]
  decode?
    | .object [(_, .string id), (_, w)] => (value.decode? w).map fun w => ⟨id, w⟩
    | _ => none

def composition : Codec Composition where
  shape := .record
    [required "constituents" (list constituent).shape, required "total_weight" .int64]
  encode c := .object
    [("constituents", (list constituent).encode c.constituents),
      ("total_weight", value.encode c.totalWeight)]
  decode?
    | .object [(_, cs), (_, w)] => do
      return ⟨← (list constituent).decode? cs, ← value.decode? w⟩
    | _ => none

def binding : Codec Binding where
  shape := .record
    [required "table" .string, required "date_column" .string,
      required "value_column" .string, required "created_at_column" .string]
  encode b := .object
    [("table", .string b.table), ("date_column", .string b.dateColumn),
      ("value_column", .string b.valueColumn),
      ("created_at_column", .string b.createdAtColumn)]
  decode?
    | .object [(_, .string t), (_, .string d), (_, .string v), (_, .string c)] =>
      some ⟨t, d, v, c⟩
    | _ => none

/-- A definition: its kind, and under `config` its binding or its composition. -/
def series : Codec Series where
  shape := .tagged "kind" "config"
    [("primitive", binding.shape), ("composed", composition.shape)]
  encode s := .object
    [("kind", kind.encode s.kind),
      ("config", match s with
        | .primitive b => binding.encode b
        | .composed c => composition.encode c)]
  decode?
    | .object [(_, k), (_, config)] => do
      match ← kind.decode? k with
      | .primitive => return .primitive (← binding.decode? config)
      | .composed => return .composed (← composition.decode? config)
    | _ => none

end Codec

/-- The two-column relation that a call answers with. -/
structure ResultSet where
  columns : List String
  rows : List Observation
  deriving DecidableEq

namespace ResultSet

def ofObservations (rows : List Observation) : ResultSet := ⟨["date", "value"], rows⟩

end ResultSet

namespace Codec

/-- An observation as a pair. -/
def row : Codec Observation where
  shape := .pair .date .int64
  encode o := .array [date.encode o.date, value.encode o.value]
  decode?
    | .array [d, v] => do return ⟨← date.decode? d, ← value.decode? v⟩
    | _ => none

def resultSet : Codec ResultSet where
  shape := .record [required "columns" (list text).shape, required "rows" (list row).shape]
  encode r := .object
    [("columns", (list text).encode r.columns), ("rows", (list row).encode r.rows)]
  decode?
    | .object [(_, cs), (_, rs)] => do
      return ⟨← (list text).decode? cs, ← (list row).decode? rs⟩
    | _ => none

end Codec
end TimeSeries
