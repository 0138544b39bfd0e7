import TimeSeries.Text.Ascii

/-!
Media types as they stand in a Content-Type header: a type, a subtype, perhaps with a suffix after a
plus sign, and parameters after semicolons.
-/
namespace TimeSeries.Http

/-- A visible ASCII character that separates tokens. -/
def isSeparator (c : Char) : Bool := "\"(),/:;<=>?@[\\]\x7b\x7d".toList.contains c

/-- A character of a token. -/
def isTokenChar (c : Char) : Bool := '!' ≤ c && c ≤ '~' && !isSeparator c

/-- What may stand between quotes in a parameter. -/
def isQuotedChar (c : Char) : Bool := ' ' ≤ c && c ≤ '~'

inductive ParameterState where
  /-- Before a name. -/
  | start
  | name
  | afterEquals
  | value
  /-- After an opening quote; the next character is text, even if it is a quote. -/
  | opened
  | quoted
  | afterQuoted
  deriving DecidableEq

/-- One character further in the parameters, none if it cannot stand there. -/
def ParameterState.next : ParameterState → Char → Option ParameterState
  | start, c => if c = ' ' then some start else if isTokenChar c then some name else none
  | name, c => if c = '=' then some afterEquals else if isTokenChar c then some name else none
  | afterEquals, c =>
    if c = '"' then some opened else if isTokenChar c then some value else none
  | value, c => if c = ';' then some start else if isTokenChar c then some value else none
  | opened, c => if isQuotedChar c then some quoted else none
  | quoted, c => if c = '"' then some afterQuoted else if isQuotedChar c then some quoted else none
  | afterQuoted, c => if c = ';' then some start else if c = ' ' then some afterQuoted else none

/-- Where parameters may end. -/
def ParameterState.isFinal : ParameterState → Bool
  | start | afterEquals | value | afterQuoted => true
  | name | opened | quoted => false

/-- What follows the subtype is empty or a semicolon and parameters. -/
def validParameters : List Char → Bool
  | [] => true
  | c :: cs =>
    c = ';' && match cs.foldlM ParameterState.next .start with
      | some state => state.isFinal
      | none => false

/-- The parts of a subtype before and after its last plus sign; a plus sign at the start does not
count as one. -/
def splitSuffix (subtype : List Char) : List Char × Option (List Char) :=
  let suffix := (subtype.reverse.takeWhile (· ≠ '+')).reverse
  let stem := subtype.take (subtype.length - suffix.length - 1)
  if stem = [] then (subtype, none) else (stem, some suffix)

/-- The type is `application`, and the subtype or its suffix is `json`. -/
def isJsonMediaType (header : String) : Bool :=
  let lower := (Text.lower header).toList
  let type := lower.takeWhile isTokenChar
  match lower.drop type.length with
  | '/' :: rest =>
    let subtype := rest.takeWhile isTokenChar
    let json := "json".toList
    let (stem, suffix) := splitSuffix subtype
    type = "application".toList && (stem = json || suffix = some json) &&
      validParameters (rest.drop subtype.length)
  | _ => false

example : ["application/json", "Application/JSON;charset=utf-8", "application/vnd.a+json"].all
    isJsonMediaType = true := by decide +kernel
example : ["text/json", "application/jsonx", "application/json charset", "application/+json"].any
    isJsonMediaType = false := by decide +kernel

end TimeSeries.Http
