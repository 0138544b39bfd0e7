import TimeSeries.Text.Utf8

/-!
The path and the query of a request. A path is a list of segments, each percent-encoded UTF-8; a
query is a list of names and values in the form encoding, where a plus sign is a space. A percent
sign that no two hexadecimal digits follow stands for itself.
-/
namespace TimeSeries.Http

def hexValue? (b : UInt8) : Option Nat :=
  let n := b.toNat
  if 0x30 ≤ n ∧ n ≤ 0x39 then some (n - 0x30)
  else if 0x41 ≤ n ∧ n ≤ 0x46 then some (n - 0x41 + 10)
  else if 0x61 ≤ n ∧ n ≤ 0x66 then some (n - 0x61 + 10)
  else none

/-- The byte of an escape at the start of some bytes. -/
def escape? : List UInt8 → Option UInt8
  | p :: a :: b :: _ => do
    if p ≠ 0x25 then none
    return UInt8.ofNat ((← hexValue? a) * 16 + (← hexValue? b))
  | _ => none

/-- Decode after passing over some bytes that belong to an escape. -/
def percentDecodeFrom : Nat → List UInt8 → List UInt8
  | _, [] => []
  | skip + 1, _ :: rest => percentDecodeFrom skip rest
  | 0, b :: rest =>
    match escape? (b :: rest) with
    | some byte => byte :: percentDecodeFrom 2 rest
    | none => b :: percentDecodeFrom 0 rest

def percentDecode (bytes : List UInt8) : List UInt8 := percentDecodeFrom 0 bytes

/-- The parts of a text between the separators. -/
def splitAt (separator : Char) : List Char → List (List Char)
  | [] => [[]]
  | c :: rest =>
    if c = separator then [] :: splitAt separator rest
    else match splitAt separator rest with
      | [] => [[c]]
      | part :: parts => (c :: part) :: parts

/-- What comes before the first separator, and what comes after it. -/
def cutAt (separator : Char) (cs : List Char) : List Char × List Char :=
  (cs.takeWhile (· ≠ separator), (cs.dropWhile (· ≠ separator)).drop 1)

/-- Path and query of a request target; a fragment does not count. -/
def splitTarget (target : String) : List Char × List Char :=
  cutAt '?' (cutAt '#' target.toList).1

/-- A path segment, when its bytes are UTF-8. -/
def decodeSegment? (segment : List Char) : Option String :=
  Text.decodeUtf8? (percentDecode (Text.encodeUtf8 (String.ofList segment)))

def decodeForm (part : List Char) : String :=
  let spaced := part.map fun c => if c = '+' then ' ' else c
  Text.decodeUtf8Lossy (percentDecode (Text.encodeUtf8 (String.ofList spaced)))

/-- The names and values of a query; empty parts do not count, and a part without an equals sign has
an empty value. -/
def decodeQuery (query : List Char) : List (String × String) :=
  ((splitAt '&' query).filter (· ≠ [])).map fun part =>
    let (name, value) := cutAt '=' part
    (decodeForm name, decodeForm value)

example : decodeQuery "a=1+%2B&&b&a=%C3%A9".toList
    = [("a", "1 +"), ("b", ""), ("a", "é")] := by decide +kernel
example : decodeSegment? "a+b%2f%zz".toList = some "a+b/%zz" := by decide +kernel

end TimeSeries.Http
