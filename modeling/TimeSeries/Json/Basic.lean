import TimeSeries.Decimal

/-!
JSON values and their compact text. Members of an object keep the order, and the repetitions, of
their text. Integers are exact and without bound; any other number is kept as it was written. The
compact text has no blanks, and in strings no escape where none is needed.
-/
namespace TimeSeries

inductive Json where
  | null
  | bool (value : Bool)
  | integer (value : Int)
  /-- A number with a fraction or an exponent, or minus zero. -/
  | decimal (text : List Char)
  | string (value : String)
  | array (items : List Json)
  | object (members : List (String × Json))

namespace Json

/-- The name of a value's type. -/
def typeName : Json → String
  | null => "null"
  | bool _ => "boolean"
  | integer _ | decimal _ => "number"
  | string _ => "string"
  | array _ => "array"
  | object _ => "object"

/-! ## Compact text -/

/-- Two hexadecimal digits in lower case. -/
def hexPair (n : Nat) : List Char := [Nat.digitChar (n / 16), Nat.digitChar (n % 16)]

/-- How one character is written inside a string. -/
def escaped (c : Char) : List Char :=
  if c = '"' then ['\\', '"']
  else if c = '\\' then ['\\', '\\']
  else if c = '\n' then ['\\', 'n']
  else if c = '\r' then ['\\', 'r']
  else if c = '\t' then ['\\', 't']
  else if c = '\x08' then ['\\', 'b']
  else if c = '\x0c' then ['\\', 'f']
  else if c.toNat < 0x20 then '\\' :: 'u' :: '0' :: '0' :: hexPair c.toNat
  else [c]

def stringChars (s : String) : List Char := '"' :: s.toList.flatMap escaped ++ ['"']

mutual

/-- The compact text of a value. -/
def chars : Json → List Char
  | null => ['n', 'u', 'l', 'l']
  | bool true => ['t', 'r', 'u', 'e']
  | bool false => ['f', 'a', 'l', 's', 'e']
  | integer n => Decimal.ofInt n
  | decimal text => text
  | string s => stringChars s
  | array items => '[' :: itemChars items ++ [']']
  | object members => '\x7b' :: memberChars members ++ ['\x7d']

def itemChars : List Json → List Char
  | [] => []
  | [item] => chars item
  | item :: rest => chars item ++ ',' :: itemChars rest

def memberChars : List (String × Json) → List Char
  | [] => []
  | [(key, value)] => stringChars key ++ ':' :: chars value
  | (key, value) :: rest => stringChars key ++ ':' :: chars value ++ ',' :: memberChars rest

end

def compact (j : Json) : String := String.ofList j.chars

example : (array [string "a\"\n\x01é", integer (-5), null]).compact
    = "[\"a\\\"\\n\\u0001é\",-5,null]" := by decide +kernel

end Json
end TimeSeries
