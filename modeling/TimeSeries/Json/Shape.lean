import TimeSeries.Date.Text
import TimeSeries.Json.Basic
import TimeSeries.Json.Node
import TimeSeries.Value

/-!
Shapes that JSON text may be required to have. Reading by a shape goes along the text and reports
the first fault it meets: text that is not JSON, or JSON of another shape. What it hands over is the
value in normal form: an object has exactly the fields of its shape, once each and in their order.
-/
namespace TimeSeries.Json

inductive Shape where
  | string
  | int64
  | date
  /-- Any value. -/
  | any
  /-- One of some names, as a string or as the only member of an object, with null beside it. -/
  | choice (names : List String)
  | list (item : Shape)
  | pair (first second : Shape)
  /-- An object with any keys and strings beside them. -/
  | texts
  /-- Fields by name, each with a shape and, if it may be left out, a value in its place. Other
  members are passed over. An array of the values in the order of the fields will do as well. -/
  | record (fields : List (String × Shape × Option Json))
  /-- A name under one key that decides the shape of what stands under another. -/
  | tagged (tag content : String) (variants : List (String × Shape))

/-- Why text is refused. -/
inductive Fault where
  /-- The text is not JSON. -/
  | malformed
  /-- The text is JSON, but not of the shape. -/
  | mismatched
  deriving DecidableEq

namespace Node

/-- What is wrong with a value where another shape is wanted. -/
def unexpected : Node → Fault
  | malformed | huge | loneSurrogate => .malformed
  | _ => .mismatched

def skip (n : Node) : Except Fault Unit :=
  if n.isWellFormed then .ok () else .error .malformed

def closing (closed : Bool) : Except Fault Unit :=
  if closed then .ok () else .error .malformed

def key : Option String → Except Fault String
  | some key => .ok key
  | none => .error .malformed

/-- How deep arrays and objects may lie in each other where their contents are wanted. -/
def maxDepth : Nat := 127

/-- One level further down. -/
def enter : Nat → Except Fault Nat
  | 0 => .error .malformed
  | depth + 1 => .ok depth

mutual

/-- Any value. -/
def readAny (depth : Nat) : Node → Except Fault Json
  | null => .ok .null
  | bool b => .ok (.bool b)
  | integer n => .ok (.integer n)
  | decimal text => .ok (.decimal text)
  | string s => .ok (.string s)
  | array items closed => do
    let depth ← enter depth
    let items ← readItems depth items
    closing closed
    return .array items
  | object members closed => do
    let depth ← enter depth
    let members ← readMembers depth members
    closing closed
    return .object members
  | malformed | huge | loneSurrogate => .error .malformed

def readItems (depth : Nat) : List Node → Except Fault (List Json)
  | [] => .ok []
  | item :: rest => do
    let item ← readAny depth item
    return item :: (← readItems depth rest)

def readMembers (depth : Nat) :
    List (Option String × Node) → Except Fault (List (String × Json))
  | [] => .ok []
  | (k, value) :: rest => do
    let k ← key k
    let value ← readAny depth value
    return (k, value) :: (← readMembers depth rest)

end

def readString : Node → Except Fault String
  | string s => .ok s
  | n => .error n.unexpected

def readInt64 : Node → Except Fault Json
  | integer n => if (Value.ofInt? n).isSome then .ok (.integer n) else .error .mismatched
  | n => .error n.unexpected

def readDate (n : Node) : Except Fault Json := do
  let s ← readString n
  match Date.ofLoose? .wide s with
  | some date => return .string date.text
  | none => throw .mismatched

def readTexts (depth : Nat) : Node → Except Fault Json
  | object members closed => do
    let _ ← enter depth
    let members ← members.mapM fun (k, value) => do
      let k ← key k
      let s ← readString value
      return (k, Json.string s)
    closing closed
    return .object members
  | n => .error n.unexpected

def readName (names : List String) (name : String) : Except Fault String :=
  if name ∈ names then .ok name else .error .mismatched

/-- One of some names. -/
def readChoice (names : List String) (depth : Nat) : Node → Except Fault String
  | string s => readName names s
  | object [] _ => .error .malformed
  | object ((k, value) :: rest) closed => do
    let _ ← enter depth
    let k ← key k
    let name ← readName names k
    match value with
    | null => if rest.isEmpty && closed then return name else throw .malformed
    | other => throw other.unexpected
  | _ => .error .malformed

/-- The items of an array that ends after them. -/
def arrayEnd (rest : List Node) (closed : Bool) : Except Fault Unit :=
  if rest.isEmpty && closed then .ok () else .error .malformed

/-- An array has no further item: that is a fault of the text unless the array is closed. -/
def noItem (closed : Bool) : Fault := if closed then .mismatched else .malformed

end Node

open Node

/-- The values that fields were given, or what stands in for a field left out. -/
def fillIn (given : List (String × Json)) :
    List (String × Shape × Option Json) → Except Fault (List (String × Json))
  | [] => .ok []
  | (name, _, default) :: rest =>
    match (given.lookup name).or default with
    | some value => return (name, value) :: (← fillIn given rest)
    | none => .error .mismatched

mutual

def Shape.read (depth : Nat) (n : Node) : Shape → Except Fault Json
  | .string => (readString n).map .string
  | .int64 => readInt64 n
  | .date => readDate n
  | .any => readAny depth n
  | .choice names => (readChoice names depth n).map .string
  | .texts => readTexts depth n
  | .list item =>
    match n with
    | .array items closed => do
      let depth ← enter depth
      let items ← items.mapM fun i => item.read depth i
      closing closed
      return .array items
    | n => .error n.unexpected
  | .pair first second =>
    match n with
    | .array items closed => do
      let depth ← enter depth
      match items with
      | [] => throw (noItem closed)
      | [a] =>
        let _ ← first.read depth a
        throw (noItem closed)
      | a :: b :: rest =>
        let a ← first.read depth a
        let b ← second.read depth b
        arrayEnd rest closed
        return .array [a, b]
    | n => .error n.unexpected
  | .record fields =>
    match n with
    | .array items closed => do
      let depth ← enter depth
      return .object (← readInOrder depth closed items fields)
    | .object members closed => do
      let depth ← enter depth
      let given ← members.foldlM (fun given (k, value) => do
        let k ← key k
        if (given.lookup k).isSome then throw .mismatched
        match readField depth k value fields with
        | some value => return (k, ← value) :: given
        | none =>
          skip value
          return given) []
      closing closed
      return .object (← fillIn given fields)
    | n => .error n.unexpected
  | .tagged tag content variants =>
    match n with
    | .array [name, value] true => do
      let depth ← enter depth
      let name ← readChoice (variants.map (·.1)) depth name
      match readVariant depth name value variants with
      | some value => return .object [(tag, .string name), (content, ← value)]
      | none => throw .mismatched
    | .object members true => do
      let depth ← enter depth
      let relevant := members.filter fun (k, _) => k = some tag ∨ k = some content
      members.forM fun (k, value) => do
        let k ← key k
        if k ≠ tag ∧ k ≠ content then skip value
      match relevant with
      | [(k, first), (k', second)] =>
        if k = k' then throw .mismatched
        let (name, value) := if k = some tag then (first, second) else (second, first)
        if k ≠ some tag then let _ ← readAny depth value
        let name ← readChoice (variants.map (·.1)) depth name
        match readVariant depth name value variants with
        | some value => return .object [(tag, .string name), (content, ← value)]
        | none => throw .mismatched
      | _ => throw .mismatched
    | n => .error n.unexpected

/-- The values of an array, field by field. -/
def readInOrder (depth : Nat) (closed : Bool) :
    List Node → List (String × Shape × Option Json) → Except Fault (List (String × Json))
  | rest, [] => do
    arrayEnd rest closed
    return []
  | [], (name, _, default) :: fields =>
    match default with
    | some value =>
      if closed then return (name, value) :: (← readInOrder depth closed [] fields)
      else .error .malformed
    | none => .error (noItem closed)
  | item :: rest, (name, shape, _) :: fields => do
    let value ← shape.read depth item
    return (name, value) :: (← readInOrder depth closed rest fields)

/-- The value under a key, if the key is that of a field. -/
def readField (depth : Nat) (k : String) (value : Node) :
    List (String × Shape × Option Json) → Option (Except Fault Json)
  | [] => none
  | (name, shape, _) :: fields =>
    if name = k then some (shape.read depth value) else readField depth k value fields

/-- The value beside a name, if the name is that of a variant. -/
def readVariant (depth : Nat) (name : String) (value : Node) :
    List (String × Shape) → Option (Except Fault Json)
  | [] => none
  | (variant, shape) :: variants =>
    if variant = name then some (shape.read depth value)
    else readVariant depth name value variants

end

/-- The value of a text, which may end in blanks. -/
def Shape.ofText (shape : Shape) (text : String) : Except Fault Json := do
  let (n, rest) := Node.ofChars text.toList
  let value ← shape.read maxDepth n
  if Node.skipSpace rest ≠ [] then throw .malformed
  return value

/-- Any JSON text. -/
def ofText? (text : String) : Option Json := (Shape.any.ofText text).toOption

end TimeSeries.Json
