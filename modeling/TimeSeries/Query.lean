import TimeSeries.Date.Text
import TimeSeries.Error
import TimeSeries.Json.Basic

/-!
What a caller asks of a series: one of two operations, by a name, and a day, the earliest or the
latest value, and for a day perhaps the end of a range. A query is read from two texts or from a list
of JSON arguments; one that is read is never an inverted range.
-/
namespace TimeSeries

/-! ## Methods -/

/-- The operations on a series. -/
inductive Method where
  /-- The observations as they were recorded. -/
  | value
  /-- The observations relative to the first nonzero one. -/
  | index
  deriving DecidableEq

namespace Method

def name : Method → String
  | value => "get_value"
  | index => "get_index"

/-- Case does not matter; `get_primitive` is an older name of `get_value`. -/
def parse (name : String) : Except Error Method :=
  let lower := Text.lower name
  if lower = "get_value" ∨ lower = "get_primitive" then .ok value
  else if lower = "get_index" then .ok index
  else .error (.unknownMethod name)

@[simp] theorem parse_name (m : Method) : parse m.name = .ok m := by cases m <;> rfl

end Method

/-! ## Queries -/

/-- The `date` half of a query. -/
inductive DateSelector where
  /-- The earliest nonzero value. -/
  | earliest
  /-- The most recent value. -/
  | latest
  | on (date : Date)
  deriving DecidableEq

/-- How a query is answered from a table. -/
inductive Resolution where
  | base
  | latest
  | exact (date : Date)
  | range (first last : Date)
  deriving DecidableEq

structure Query where
  date : DateSelector
  dateTo : Option Date
  deriving DecidableEq

/-- A date in its canonical form. -/
def parseDate (s : String) : Except Error Date :=
  match Date.ofCanonical? s with
  | some d => .ok d
  | none => .error (.invalidDateFormat s)

namespace DateSelector

/-- The text that asks for the earliest nonzero value. -/
def zeroDate : String := "0000-00-00"

def parse (s : String) : Except Error DateSelector :=
  if s = "" then .ok latest
  else if s = zeroDate then .ok earliest
  else (parseDate s).map on

end DateSelector

namespace Query

def latest : Query := ⟨.latest, none⟩

def earliest : Query := ⟨.earliest, none⟩

def on (date : Date) : Query := ⟨.on date, none⟩

/-- The query itself, unless it asks for a range that ends before it starts. -/
def checked (q : Query) : Except Error Query :=
  match q with
  | ⟨.on first, some last⟩ =>
    if last < first then .error (.dateRangeInverted first last) else .ok q
  | _ => .ok q

/-- Every date from the first to the last. -/
def range (first last : Date) : Except Error Query := checked ⟨.on first, some last⟩

/-- The end of a range; empty text is as good as none. -/
def parseEnd : Option String → Except Error (Option Date)
  | none => .ok none
  | some s => if s = "" then .ok none else (parseDate s).map some

def parse (date : String) (dateTo : Option String) : Except Error Query := do
  let selector ← DateSelector.parse date
  let last ← parseEnd dateTo
  checked ⟨selector, last⟩

def stringArgument : Json → Except Error String
  | .string s => .ok s
  | other => .error (.invalidArgumentType "date" "string" other.typeName)

def optionalStringArgument : Json → Except Error (Option String)
  | .null => .ok none
  | .string s => .ok (some s)
  | other => .error (.invalidArgumentType "date_to" "string or null" other.typeName)

/-- Exactly two arguments: a string, and a string or null. -/
def ofArguments (args : List Json) : Except Error Query :=
  match args with
  | [date, dateTo] => do
    let date ← stringArgument date
    let dateTo ← optionalStringArgument dateTo
    parse date dateTo
  | _ => .error (.invalidArgumentArity 2 args.length)

def resolution (q : Query) : Resolution :=
  match q.date, q.dateTo with
  | .earliest, _ => .base
  | .latest, _ => .latest
  | .on date, none => .exact date
  | .on first, some last => .range first last

def isSinglePoint (q : Query) : Bool := q.dateTo.isNone

def text (q : Query) : String :=
  let start := match q.date with
    | .earliest => DateSelector.zeroDate
    | .latest => "latest"
    | .on date => date.text
  match q.dateTo with
  | none => start
  | some last => start ++ ".." ++ last.text

end Query
end TimeSeries
