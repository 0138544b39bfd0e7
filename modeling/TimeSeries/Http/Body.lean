import TimeSeries.Codec
import TimeSeries.Http.MediaType
import TimeSeries.Http.Message

/-!
The JSON bodies of requests. A body must be announced as JSON; what is not JSON then is a bad
request, and JSON of another shape cannot be processed.
-/
namespace TimeSeries.Http

structure Registration where
  id : SeriesId
  metadata : Metadata

/-- An observation with its date as text, yet to be read. -/
structure Recording where
  date : String
  value : Value

/-- A call with its method by name and its arguments in a list. -/
structure Call where
  method : String
  arguments : List Json

namespace Body

open Codec (required)

def registration : Codec Registration where
  shape := .record [required "id" .string, ("metadata", .texts, some (.object []))]
  encode r := .object [("id", .string r.id),
    ("metadata", .object (r.metadata.toList.map fun (k, s) => (k, .string s)))]
  decode?
    | .object [(_, .string id), (_, .object members)] => do
      let entries ← members.mapM fun
        | (k, .string s) => some (k, s)
        | _ => none
      return ⟨id, .ofList entries⟩
    | _ => none

def recording : Codec Recording where
  shape := .record [required "date" .string, required "value" .int64]
  encode r := .object [("date", .string r.date), ("value", Codec.value.encode r.value)]
  decode?
    | .object [(_, .string date), (_, v)] =>
      (Codec.value.decode? v).map fun v => ⟨date, v⟩
    | _ => none

def call : Codec Call where
  shape := .record [required "method" .string, ("args", .list .any, some (.array []))]
  encode c := .object [("method", .string c.method), ("args", .array c.arguments)]
  decode?
    | .object [(_, .string method), (_, .array arguments)] => some ⟨method, arguments⟩
    | _ => none

def tableName : Codec String where
  shape := .record [required "table_name" .string]
  encode name := .object [("table_name", .string name)]
  decode?
    | .object [(_, .string name)] => some name
    | _ => none

end Body

/-- The body of a request in a given form, or why it is refused. -/
def Request.read {α : Type} (r : Request) (codec : Codec α) : Except Status α :=
  if r.contentType.any isJsonMediaType then
    match codec.read (r.body.getD "") with
    | .ok a => .ok a
    | .error .malformed => .error .badRequest
    | .error .mismatched => .error .unprocessable
  else .error .unsupportedMediaType

end TimeSeries.Http
