import TimeSeries.Http.Server
import TimeSeries.Proofs.Codecs
import TimeSeries.Proofs.Refinement
import TimeSeries.Proofs.Targets

/-!
Calls of a series by way of requests. A target says in its path and its query what a body says in a
list of JSON arguments; what is asked either way comes to one response, and no call changes the
service.
-/
namespace TimeSeries.Http

/-- What is asked of a series: a method by name, and the texts of a query, which may be missing. -/
structure Asked where
  id : SeriesId
  method : String
  date : Option String
  dateTo : Option String

/-- Rows, or the failure in place of them. -/
def Response.ofOutcome : Except Error (List Observation) → Response
  | .ok rows => success (resultSet rows)
  | .error e => ofError e

/-- The response that a handler comes to, by one way or the other, and the service after it. -/
def Handler.answer (h : Handler Response) (s : Service) : Response × Service :=
  match h.run s with
  | (.ok response, s') => (response, s')
  | (.error response, s') => (response, s')

namespace Asked

/-- The method goes before the texts, and these before the engine. -/
def outcome [Scan] (a : Asked) (db : Database) : Except Error (List Observation) := do
  let method ← Method.parse a.method
  let query ← Query.parse (a.date.getD "") a.dateTo
  Store.call db a.id method query

def response [Scan] (a : Asked) (db : Database) : Response := .ofOutcome (a.outcome db)

def body (a : Asked) : Call := ⟨a.method, [.string (a.date.getD ""), Query.argument a.dateTo]⟩

def parameters (a : Asked) : List (String × String) :=
  a.date.toList.map (("date", ·)) ++ a.dateTo.toList.map (("date_to", ·))

/-- The texts stand among some parameters under their names, and nothing else does. -/
structure IsAmong (a : Asked) (query : List (String × String)) : Prop where
  date : query.filter (·.1 = "date") = a.date.toList.map (("date", ·))
  dateTo : query.filter (·.1 = "date_to") = a.dateTo.toList.map (("date_to", ·))

theorem isAmong_parameters (a : Asked) : a.IsAmong a.parameters := by
  obtain ⟨id, method, date, dateTo⟩ := a
  constructor <;> cases date <;> cases dateTo <;> simp [parameters]

end Asked

/-! ## Handlers -/

namespace Handler

variable {α : Type}

theorem answer_bind {x : Handler α} {f : α → Handler Response} {s s' : Service} {a : α}
    (h : x.run s = (.ok a, s')) : answer (x >>= f) s = answer (f a) s' := by
  have hrun : (x >>= f).run s = (f a).run s' := by
    show (match x.run s with | (r, s'') => ExceptT.bindCont f r s'') = _
    rw [h]
    rfl
  rw [answer, hrun, answer]

theorem run_extract {r : Except Status α} {a : α} (h : r = .ok a) (s : Service) :
    (extract r).run s = (.ok a, s) := by
  rw [h]
  rfl

theorem run_segment {segment : String} {text : String}
    (h : decodeSegment? segment.toList = some text) (s : Service) :
    (Handler.segment segment).run s = (.ok text, s) := by
  rw [Handler.segment, h]
  rfl

theorem run_parameter {query : List (String × String)} {name : String} {value : Option String}
    (h : query.filter (·.1 = name) = value.toList.map ((name, ·))) (s : Service) :
    (parameter query name).run s = (.ok value, s) := by
  rw [parameter, h]
  cases value <;> rfl

theorem answer_answerCall [Scan] (id method : String) (query : Except Error Query) (s : Service) :
    answer (answerCall id method query) s = (.ofOutcome (do
      let method ← Method.parse method
      let query ← query
      Store.call s.database id method query), s) := by
  rw [answerCall]
  cases Method.parse method with
  | error e => rfl
  | ok method =>
    cases query with
    | error e => rfl
    | ok query =>
      show answer (do
        let rows ← engine (Store.call s.database id method query)
        return success (resultSet rows)) s = (.ofOutcome (Store.call s.database id method query), s)
      cases Store.call s.database id method query <;> rfl

end Handler

section Handlers
variable [Scan] {a : Asked} {i : String} (hid : decodeSegment? i.toList = some a.id)
include hid

theorem answer_call {m : String} (hmethod : decodeSegment? m.toList = some a.method)
    {query : List (String × String)} (hquery : a.IsAmong query) (r : Request) (s : Service) :
    (answerRoute r query (.call i m)).answer s = (a.response s.database, s) := by
  rw [answerRoute, Handler.answer_bind (Handler.run_segment hid s),
    Handler.answer_bind (Handler.run_segment hmethod s),
    Handler.answer_bind (Handler.run_parameter hquery.date s),
    Handler.answer_bind (Handler.run_parameter hquery.dateTo s), Handler.answer_answerCall]
  rfl

theorem answer_callWithArguments {r : Request} (hbody : r.read Body.call = .ok a.body)
    (query : List (String × String)) (s : Service) :
    (answerRoute r query (.callWithArguments i)).answer s = (a.response s.database, s) := by
  rw [answerRoute, Handler.answer_bind (Handler.run_segment hid s),
    Handler.answer_bind (Handler.run_extract hbody s), Handler.answer_answerCall, Asked.body,
    Query.ofArguments_argument]
  rfl

end Handlers

/-! ## Requests -/

/-- The path leads to the method of the series, and the query holds the texts. -/
structure Request.AsksByTarget (r : Request) (a : Asked) : Prop where
  method : r.method = "GET"
  route : ∃ i m, Route.ofPath? (splitTarget r.target).1 = some (.call i m) ∧
    decodeSegment? i.toList = some a.id ∧ decodeSegment? m.toList = some a.method
  query : a.IsAmong (decodeQuery (splitTarget r.target).2)

/-- The path leads to the calls of the series, and the body holds the rest. -/
structure Request.AsksByBody (r : Request) (a : Asked) : Prop where
  method : r.method = "POST"
  route : ∃ i, Route.ofPath? (splitTarget r.target).1 = some (.callWithArguments i) ∧
    decodeSegment? i.toList = some a.id
  body : r.read Body.call = .ok a.body

theorem respond_eq_answer [Scan] {r : Request} {route : Route}
    (hroute : Route.ofPath? (splitTarget r.target).1 = some route)
    (hmethod : r.method = route.method) (hhead : r.method ≠ "HEAD") (s : Service) :
    respond r s = (answerRoute r (decodeQuery (splitTarget r.target).2) route).answer s := by
  have hnot : ¬ (r.method = "HEAD" ∧ route.method = "GET") := fun h => hhead h.1
  unfold respond
  generalize splitTarget r.target = target at hroute ⊢
  obtain ⟨path, query⟩ := target
  dsimp only at hroute ⊢
  rw [hroute]
  dsimp only
  rw [if_pos (.inl hmethod), Handler.answer]
  obtain ⟨result, s'⟩ := (answerRoute r (decodeQuery query) route).run s
  cases result <;> simp only [hnot, if_false]

theorem respond_of_asksByTarget [Scan] {r : Request} {a : Asked} (h : r.AsksByTarget a)
    (s : Service) :
    respond r s = (a.response s.database, s) := by
  obtain ⟨i, m, hroute, hid, hmethod⟩ := h.route
  rw [respond_eq_answer hroute h.method (by rw [h.method]; decide),
    answer_call hid hmethod h.query]

theorem respond_of_asksByBody [Scan] {r : Request} {a : Asked} (h : r.AsksByBody a)
    (s : Service) :
    respond r s = (a.response s.database, s) := by
  obtain ⟨i, hroute, hid⟩ := h.route
  rw [respond_eq_answer hroute h.method (by rw [h.method]; decide),
    answer_callWithArguments hid h.body]

theorem accepts_any_argument (t : Option String) :
    Json.Shape.any.Accepts 0 (Query.argument t) := by
  cases t <;> exact fun _ _ => rfl

theorem body_roundTrips (a : Asked) : Body.call.RoundTrips 2 a.body where
  plain := by
    refine ⟨trivial, ⟨trivial, ?_, trivial⟩, trivial⟩
    cases a.dateTo <;> trivial
  accepts := by
    have harguments : (Json.Shape.list .any).Accepts 1 (.array a.body.arguments) := by
      apply Json.accepts_list
      intro j hj
      rcases List.mem_cons.1 hj with rfl | hj
      · exact accepts_any_argument (some _)
      · obtain rfl := List.mem_singleton.1 hj
        exact accepts_any_argument a.dateTo
    have hmethod : Json.Shape.string.Accepts 1 (.string a.method) := fun _ _ => rfl
    exact Json.accepts_record (by decide) (.cons ⟨rfl, hmethod⟩ (.cons ⟨rfl, harguments⟩ .nil))
  decode := rfl

namespace Asked

/-- The target that asks it, with every byte of it escaped. -/
def target (a : Asked) : String :=
  String.ofList (seriesPath a.id (percentEncode a.method) ++ '?' :: encodeQuery a.parameters)

def targetRequest (a : Asked) : Request := ⟨"GET", a.target, none, none⟩

def bodyRequest (a : Asked) : Request :=
  ⟨"POST", String.ofList (seriesPath a.id "call".toList), some "application/json",
    some (Body.call.write a.body)⟩

theorem isBare_of_mem_parameters {a : Asked} {p : String × String} (h : p ∈ a.parameters) :
    IsBare p.1 := by
  have hdate : IsBare "date" := ⟨by decide, by decide, by decide, by decide +kernel⟩
  have hdateTo : IsBare "date_to" := ⟨by decide, by decide, by decide, by decide +kernel⟩
  rcases List.mem_append.1 h with h | h
  · obtain ⟨text, -, rfl⟩ := List.mem_map.1 h
    exact hdate
  · obtain ⟨text, -, rfl⟩ := List.mem_map.1 h
    exact hdateTo

theorem asksByTarget_targetRequest {a : Asked} (h : a.method ≠ "") :
    a.targetRequest.AsksByTarget a := by
  obtain ⟨rest, hrest⟩ := exists_percentEncode h
  -- A segment that is written out in a path starts with a letter.
  have hne {name : String} (hname : name.toList.head? ≠ some '%') :
      String.ofList (percentEncode a.method) ≠ name := by
    rintro rfl
    rw [String.toList_ofList, hrest] at hname
    exact hname rfl
  have hsplit : splitTarget a.targetRequest.target =
      (seriesPath a.id (percentEncode a.method), encodeQuery a.parameters) := by
    apply splitTarget_append
    · exact not_mem_seriesPath (by decide) (by decide) (not_mem_percentEncode (by decide))
    · exact not_mem_seriesPath (by decide) (by decide) (not_mem_percentEncode (by decide))
    · exact not_mem_encodeQuery fun _ => isBare_of_mem_parameters
  constructor
  · rfl
  · refine ⟨String.ofList (percentEncode a.id), String.ofList (percentEncode a.method), ?_, ?_, ?_⟩
    · rw [hsplit, ofPath?_seriesPath (not_mem_percentEncode (by decide))]
      exact ofSegments?_call (hne (by decide)) (hne (by decide)) (hne (by decide))
    · rw [String.toList_ofList, decodeSegment?_percentEncode]
    · rw [String.toList_ofList, decodeSegment?_percentEncode]
  · rw [hsplit, decodeQuery_encodeQuery fun _ => isBare_of_mem_parameters]
    exact isAmong_parameters a

theorem asksByBody_bodyRequest (a : Asked) : a.bodyRequest.AsksByBody a := by
  have hsplit : splitTarget a.bodyRequest.target = (seriesPath a.id "call".toList, []) := by
    apply splitTarget_path
    · exact not_mem_seriesPath (by decide) (by decide) (by decide)
    · exact not_mem_seriesPath (by decide) (by decide) (by decide)
  constructor
  · rfl
  · refine ⟨String.ofList (percentEncode a.id), ?_, ?_⟩
    · rw [hsplit, ofPath?_seriesPath (by decide), String.ofList_toList,
        ofSegments?_callWithArguments]
    · rw [String.toList_ofList, decodeSegment?_percentEncode]
  · have htype : a.bodyRequest.contentType.any isJsonMediaType = true := by
      show isJsonMediaType "application/json" = true
      decide +kernel
    have hread : Body.call.read (a.bodyRequest.body.getD "") = .ok a.body :=
      (body_roundTrips a).read_write (by decide)
    rw [Request.read, if_pos htype, hread]

end Asked

/-- What is asked of a series is answered alike whichever way it is asked, of a handler or by a
request, and the service stays as it is. -/
theorem calls_agree [Scan] :
    (∀ (a : Asked) (s : Service) (get post : Request) (query query' : List (String × String))
      (i i' m : String), decodeSegment? i.toList = some a.id →
      decodeSegment? i'.toList = some a.id → decodeSegment? m.toList = some a.method →
      a.IsAmong query → post.read Body.call = .ok a.body →
        (answerRoute get query (.call i m)).answer s = (a.response s.database, s) ∧
        (answerRoute post query' (.callWithArguments i')).answer s = (a.response s.database, s)) ∧
    (∀ (a : Asked) (s : Service) (r : Request), r.AsksByTarget a ∨ r.AsksByBody a →
      respond r s = (a.response s.database, s)) ∧
    ∀ a : Asked, (a.method ≠ "" → a.targetRequest.AsksByTarget a) ∧
      a.bodyRequest.AsksByBody a := by
  refine ⟨?_, ?_, ?_⟩
  · intro a s get post query query' i i' m hid hid' hmethod hquery hbody
    exact ⟨answer_call hid hmethod hquery get s, answer_callWithArguments hid' hbody query' s⟩
  · intro a s r h
    rcases h with h | h
    · exact respond_of_asksByTarget h s
    · exact respond_of_asksByBody h s
  · intro a
    exact ⟨Asked.asksByTarget_targetRequest, Asked.asksByBody_bodyRequest a⟩

/-- The rows of the meal by either request and by a target in which nothing is escaped; and a
method without a name, which no path leads to. -/
theorem calls_agree_meal :
    let s : Service := ⟨(Session.after bakery).database, .start⟩
    let meal : Asked := ⟨"meal", "GET_value", some "2024-03-02", some "2024-03-06"⟩
    let rows : List Observation :=
      [⟨⟨2024, 3, 3, by decide⟩, 1200⟩, ⟨⟨2024, 3, 5, by decide⟩, 2000⟩]
    let plain : Request :=
      ⟨"GET", "/api/series/meal/GET_value?date=2024-03-02&date_to=2024-03-06", none, none⟩
    let nameless : Asked := ⟨"meal", "", none, none⟩
    meal.method ≠ "" ∧ meal.outcome s.database = .ok rows ∧
      respond meal.targetRequest s = (success (resultSet rows), s) ∧
      respond meal.bodyRequest s = (success (resultSet rows), s) ∧ plain.AsksByTarget meal ∧
      respond plain s = (success (resultSet rows), s) ∧
      nameless.response s.database = .ofError (.unknownMethod "") ∧
      (answerRoute plain [] (.call "meal" "")).answer s = (nameless.response s.database, s) ∧
      (answerRoute nameless.bodyRequest [] (.callWithArguments "meal")).answer s =
        (nameless.response s.database, s) := by
  intro s meal rows plain nameless
  obtain ⟨hhandlers, hrespond, hrequests⟩ := calls_agree
  have hmethod : meal.method ≠ "" := by decide
  have hrows : meal.outcome s.database = .ok rows := by decide +kernel
  have hresponse : meal.response s.database = success (resultSet rows) := by
    rw [Asked.response, hrows, Response.ofOutcome]
  have hplain : plain.AsksByTarget meal := by
    refine ⟨rfl, ⟨"meal", "GET_value", ?_, ?_, ?_⟩, ⟨?_, ?_⟩⟩
    · have hsplit : (splitAt '/' (splitTarget plain.target).1).map String.ofList =
          ["", "api", "series", "meal", "GET_value"] := by decide +kernel
      rw [Route.ofPath?, hsplit]
      exact ofSegments?_call (by decide) (by decide) (by decide)
    all_goals decide +kernel
  have hmeal : decodeSegment? "meal".toList = some "meal" := by decide +kernel
  have hnone : decodeSegment? "".toList = some "" := by decide +kernel
  have hbody := (hrequests nameless).2.body
  have hnameless := hhandlers nameless s plain nameless.bodyRequest [] [] "meal" "meal" "" hmeal
    hmeal hnone ⟨rfl, rfl⟩ hbody
  rw [← hresponse]
  exact ⟨hmethod, hrows, hrespond _ s _ (.inl ((hrequests meal).1 hmethod)),
    hrespond _ s _ (.inr (hrequests meal).2), hplain, hrespond _ s _ (.inl hplain), rfl,
    hnameless.1, hnameless.2⟩

end TimeSeries.Http
