import TimeSeries.Http.Body
import TimeSeries.Http.Route
import TimeSeries.Service

/-!
Answering requests. The path is looked at first, then the method, then what the path, the query and
the body hold, and only then is the engine asked.
-/
namespace TimeSeries.Http

/-- A step of an answer, which may end it with a response. -/
abbrev Handler := ExceptT Response (StateM Service)

namespace Handler

variable {α : Type}

/-- Something taken from the request, which is refused if it makes no sense. -/
def extract (r : Except Status α) : Handler α := ExceptT.mk (pure (r.mapError .refusal))

/-- A result of the engine. -/
def engine (r : Except Error α) : Handler α := ExceptT.mk (pure (r.mapError .ofError))

/-- A step of the service. -/
def perform (step : Service → Except Error α × Service) : Handler α :=
  ExceptT.mk fun s => let (r, s) := step s; (r.mapError .ofError, s)

def segment (s : String) : Handler String :=
  extract (match decodeSegment? s.toList with
    | some s => .ok s
    | none => .error .badRequest)

/-- The value of a query parameter, which may be given once. -/
def parameter (query : List (String × String)) (name : String) : Handler (Option String) :=
  extract (match query.filter (·.1 = name) with
    | [] => .ok none
    | [(_, value)] => .ok (some value)
    | _ => .error .badRequest)

/-- An integer parameter that must be given. -/
def integerParameter (query : List (String × String)) (name : String) : Handler Value := do
  let text ← parameter query name
  extract (match text.bind Decimal.value? with
    | some v => .ok v
    | none => .error .badRequest)

end Handler

open Handler

def success (body : Json) : Response := ⟨.ok, some body⟩

def creation (body : Json) : Response := ⟨.created, some body⟩

def resultSet (rows : List Observation) : Json :=
  Codec.resultSet.encode (.ofObservations rows)

/-- The result of a method of a series by name. -/
def answerCall [Scan] (id method : String) (query : Except Error Query) : Handler Response := do
  let method ← engine (Method.parse method)
  let query ← engine query
  let rows ← engine (Store.call (← get).database id method query)
  return success (resultSet rows)

def answerRoute [Scan] (r : Request) (query : List (String × String)) : Route → Handler Response
  | .list => do
    let infos ← engine (Store.list (← get).database)
    return success ((Codec.list Codec.seriesInfo).encode infos)
  | .registerPrimitive => do
    let body ← extract (r.read Body.registration)
    let info ← perform (·.registerPrimitive body.id body.metadata)
    return creation (Codec.seriesInfo.encode info)
  | .registerComposed => do
    let body ← extract (r.read Body.registration)
    let info ← perform (·.registerComposed body.id body.metadata)
    return creation (Codec.seriesInfo.encode info)
  | .record id => do
    let id ← segment id
    let body ← extract (r.read Body.recording)
    let date ← engine (parseDate body.date)
    let observation : Observation := ⟨date, body.value⟩
    perform (·.record id observation)
    return creation (Codec.observation.encode observation)
  | .callWithArguments id => do
    let id ← segment id
    let body ← extract (r.read Body.call)
    answerCall id body.method (Query.ofArguments body.arguments)
  | .call id method => do
    let id ← segment id
    let method ← segment method
    let date ← parameter query "date"
    let dateTo ← parameter query "date_to"
    answerCall id method (Query.parse (date.getD "") dateTo)
  | .createTable => do
    let name ← extract (r.read Body.tableName)
    perform (·.createTable name)
    return creation (Body.tableName.encode name)
  | .fraction => do
    let value ← integerParameter query "value"
    let numerator ← integerParameter query "numerator"
    let denominator ← integerParameter query "denominator"
    let result ← engine (TimeSeries.fraction value numerator denominator)
    return success (.object [("result", Codec.value.encode result)])

/-- The response to a request, and the service after it. -/
def respond [Scan] (r : Request) (s : Service) : Response × Service :=
  let (path, query) := splitTarget r.target
  match Route.ofPath? path with
  | none => (.refusal .notFound, s)
  | some route =>
    let isHead := r.method = "HEAD" ∧ route.method = "GET"
    if r.method = route.method ∨ isHead then
      let (result, s) := (answerRoute r (decodeQuery query) route).run s
      let response := match result with
        | .ok response => response
        | .error response => response
      (if isHead then .refusal response.status else response, s)
    else (.refusal .methodNotAllowed, s)

end TimeSeries.Http
