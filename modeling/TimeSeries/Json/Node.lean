import TimeSeries.Json.Number

/-!
JSON text as a tree, as far as it can be read. Reading never fails: a place where the text stops
being JSON becomes part of the tree, so that whoever walks the tree in the order of the text meets
the first fault first, whatever kind of fault it is.
-/
namespace TimeSeries.Json

inductive Node where
  /-- The text here is no value. -/
  | malformed
  | null
  | bool (value : Bool)
  | integer (value : Int)
  | decimal (text : List Char)
  /-- A number too large for a float. -/
  | huge
  | string (value : String)
  /-- A string that escapes half of a surrogate pair. -/
  | loneSurrogate
  /-- Items, and whether the bracket after them closes. -/
  | array (items : List Node) (closed : Bool)
  /-- Members, a key being none if it escapes half of a surrogate pair, and whether the brace after
  them closes. -/
  | object (members : List (Option String × Node)) (closed : Bool)

namespace Node

def isSpace (c : Char) : Bool := c = ' ' ∨ c = '\n' ∨ c = '\r' ∨ c = '\t'

def skipSpace (cs : List Char) : List Char := cs.dropWhile isSpace

def hexDigit? (c : Char) : Option Nat :=
  if c.isDigit then some (c.toNat - '0'.toNat)
  else if 'a' ≤ c ∧ c ≤ 'f' then some (c.toNat - 'a'.toNat + 10)
  else if 'A' ≤ c ∧ c ≤ 'F' then some (c.toNat - 'A'.toNat + 10)
  else none

def hex4? (a b c d : Char) : Option Nat := do
  return (← hexDigit? a) * 4096 + (← hexDigit? b) * 256 + (← hexDigit? c) * 16 + (← hexDigit? d)

/-- What a character after a backslash stands for. -/
def simpleEscape? : Char → Option Char
  | '"' => some '"'
  | '\\' => some '\\'
  | '/' => some '/'
  | 'b' => some '\x08'
  | 'f' => some '\x0c'
  | 'n' => some '\n'
  | 'r' => some '\r'
  | 't' => some '\t'
  | _ => none

/-- The code points and escaped code units of a string up to its closing quote, and what follows. -/
def scanUnits : List Char → Option (List Nat × List Char)
  | [] => none
  | '"' :: rest => some ([], rest)
  | '\\' :: 'u' :: a :: b :: c :: d :: rest => do
    let unit ← hex4? a b c d
    let (units, rest) ← scanUnits rest
    return (unit :: units, rest)
  | '\\' :: e :: rest => do
    let c ← simpleEscape? e
    let (units, rest) ← scanUnits rest
    return (c.toNat :: units, rest)
  | c :: rest => do
    if c.toNat < 0x20 then none
    let (units, rest) ← scanUnits rest
    return (c.toNat :: units, rest)

def isHighSurrogate (n : Nat) : Bool := 0xd800 ≤ n ∧ n < 0xdc00

def isLowSurrogate (n : Nat) : Bool := 0xdc00 ≤ n ∧ n < 0xe000

/-- Characters of units; a high surrogate needs a low one after it, and the other way round. -/
def joinUnits : List Nat → Option (List Char)
  | [] => some []
  | [n] => if isHighSurrogate n || isLowSurrogate n then none else some [Char.ofNat n]
  | n :: m :: rest =>
    if isHighSurrogate n then
      if isLowSurrogate m then
        (joinUnits rest).map (Char.ofNat (0x10000 + (n - 0xd800) * 1024 + (m - 0xdc00)) :: ·)
      else none
    else if isLowSurrogate n then none
    else (joinUnits (m :: rest)).map (Char.ofNat n :: ·)

/-- The text of a string after its opening quote, none if it is half of a surrogate pair short, and
what follows. -/
def scanString (cs : List Char) : Option (Option String × List Char) :=
  (scanUnits cs).map fun (units, rest) => ((joinUnits units).map String.ofList, rest)

def ofNumeral (x : Numeral) : Node :=
  if x.isHuge then huge
  else match x.integer? with
    | some n => integer n
    | none => decimal x.chars

mutual

/-- The value at the start of a text, and what follows it. -/
def scan : Nat → List Char → Node × List Char
  | 0, _ => (malformed, [])
  | fuel + 1, cs =>
    match skipSpace cs with
    | 'n' :: 'u' :: 'l' :: 'l' :: rest => (null, rest)
    | 't' :: 'r' :: 'u' :: 'e' :: rest => (bool true, rest)
    | 'f' :: 'a' :: 'l' :: 's' :: 'e' :: rest => (bool false, rest)
    | '"' :: rest =>
      match scanString rest with
      | some (some s, rest) => (string s, rest)
      | some (none, rest) => (loneSurrogate, rest)
      | none => (malformed, [])
    | '[' :: rest =>
      match skipSpace rest with
      | ']' :: rest => (array [] true, rest)
      | rest =>
        let (items, closed, rest) := scanItems fuel rest
        (array items closed, rest)
    | '\x7b' :: rest =>
      match skipSpace rest with
      | '\x7d' :: rest => (object [] true, rest)
      | rest =>
        let (members, closed, rest) := scanMembers fuel rest
        (object members closed, rest)
    | cs =>
      match Numeral.scan cs with
      | some (x, rest) => (ofNumeral x, rest)
      | none => (malformed, [])

/-- One item or more, up to the closing bracket. -/
def scanItems : Nat → List Char → List Node × Bool × List Char
  | 0, _ => ([], false, [])
  | fuel + 1, cs =>
    let (item, rest) := scan fuel cs
    match skipSpace rest with
    | ',' :: rest =>
      let (items, closed, rest) := scanItems fuel rest
      (item :: items, closed, rest)
    | ']' :: rest => ([item], true, rest)
    | _ => ([item], false, [])

/-- One member or more, up to the closing brace. -/
def scanMembers : Nat → List Char → List (Option String × Node) × Bool × List Char
  | 0, _ => ([], false, [])
  | fuel + 1, cs =>
    match skipSpace cs with
    | '"' :: rest =>
      match scanString rest with
      | none => ([], false, [])
      | some (key, rest) =>
        match skipSpace rest with
        | ':' :: rest =>
          let (value, rest) := scan fuel rest
          match skipSpace rest with
          | ',' :: rest =>
            let (members, closed, rest) := scanMembers fuel rest
            ((key, value) :: members, closed, rest)
          | '\x7d' :: rest => ([(key, value)], true, rest)
          | _ => ([(key, value)], false, [])
        | _ => ([(key, malformed)], false, [])
    | _ => ([], false, [])

end

/-- The value of a text and what follows it. Every value takes a character and every step into one
takes another, so twice the length is depth enough. -/
def ofChars (cs : List Char) : Node × List Char := scan (2 * cs.length + 2) cs

mutual

/-- The text of the value is JSON throughout, as far as one sees who does not need the value. -/
def isWellFormed : Node → Bool
  | malformed => false
  | array items closed => itemsWellFormed items && closed
  | object members closed => membersWellFormed members && closed
  | _ => true

def itemsWellFormed : List Node → Bool
  | [] => true
  | item :: rest => isWellFormed item && itemsWellFormed rest

def membersWellFormed : List (Option String × Node) → Bool
  | [] => true
  | (_, value) :: rest => isWellFormed value && membersWellFormed rest

end

end Node
end TimeSeries.Json
