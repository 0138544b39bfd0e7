import TimeSeries.Error
import TimeSeries.Json.Basic

/-!
Requests and responses. A failure of the engine becomes a response whose status says whose fault it
is and whose body holds the message.
-/
namespace TimeSeries.Http

structure Request where
  method : String
  /-- The path and the query. -/
  target : String
  contentType : Option String
  body : Option String

inductive Status where
  | ok
  | created
  | badRequest
  | notFound
  | methodNotAllowed
  | conflict
  | unsupportedMediaType
  | unprocessable
  | serverError
  deriving DecidableEq

namespace Status

def code : Status → Nat
  | ok => 200
  | created => 201
  | badRequest => 400
  | notFound => 404
  | methodNotAllowed => 405
  | conflict => 409
  | unsupportedMediaType => 415
  | unprocessable => 422
  | serverError => 500

/-- The status of a failure. A tag of a constituent does not change it. -/
def ofError (e : Error) : Status :=
  match e.innermost with
  | .unknownSeries _ | .noDataFound => notFound
  | .seriesExists _ => conflict
  | .divisionByZero | .overflow | .cyclicComposition _ => unprocessable
  | .expectedExactlyOne .. | .inconsistentSeriesLength | .backingStore _ => serverError
  | _ => badRequest

end Status

structure Response where
  status : Status
  /-- None for a response without JSON. -/
  body : Option Json

namespace Response

/-- A refusal before the engine is asked. -/
def refusal (status : Status) : Response := ⟨status, none⟩

def ofError (e : Error) : Response :=
  ⟨.ofError e, some (.object [("error", .string e.message)])⟩

end Response
end TimeSeries.Http
