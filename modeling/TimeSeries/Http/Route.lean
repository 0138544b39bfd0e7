import TimeSeries.Error
import TimeSeries.Http.Url

/-!
The paths of the interface. A segment that is written out in a path goes before one that stands for
an identifier or a method; those may be empty, except at the end.
-/
namespace TimeSeries.Http

/-- What a path leads to. Identifiers and methods are still encoded. -/
inductive Route where
  | list
  | registerPrimitive
  | registerComposed
  | record (id : String)
  | callWithArguments (id : String)
  | call (id method : String)
  | createTable
  | fraction

namespace Route

def ofSegments? : List String → Option Route
  | ["", "api", "series"] => some list
  | ["", "api", "series", "primitive"] => some registerPrimitive
  | ["", "api", "series", "composed"] => some registerComposed
  | ["", "api", "series", id, "observations"] => some (record id)
  | ["", "api", "series", id, "call"] => some (callWithArguments id)
  | ["", "api", "series", id, method] => if method = "" then none else some (call id method)
  | ["", "api", "tables"] => some createTable
  | ["", "api", "math", "fraction"] => some fraction
  | _ => none

def ofPath? (path : List Char) : Option Route :=
  ofSegments? ((splitAt '/' path).map String.ofList)

/-- The only method, beside HEAD for GET, that a path knows. -/
def method : Route → String
  | list | call .. | fraction => "GET"
  | _ => "POST"

end Route
end TimeSeries.Http
