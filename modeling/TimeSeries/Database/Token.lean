import TimeSeries.Database.Numeral
import TimeSeries.Text.Ascii

/-!
Tokens of a declaration: words, names and texts between quotes, unsigned numbers and symbols, with
blanks between them where they like.
-/
namespace TimeSeries.Database

inductive Token where
  /-- A word outside quotes, in upper case and as it is written. -/
  | word (upper text : String)
  /-- What stands between double quotes, backquotes or square brackets. -/
  | name (text : String)
  /-- What stands between single quotes. -/
  | string (text : String)
  | number (x : Numeral)
  | symbol (c : Char)

namespace Token

def isWordChar (c : Char) : Bool := Text.isWordChar c || c == '$' || 128 ≤ c.toNat

def startsWord (c : Char) : Bool := isWordChar c && !c.isDigit && c != '$'

/-- What comes before a closing quote, and what after it. A doubled quote is one that does not
close. -/
def quoted? (quote : Char) : List Char → Option (List Char × List Char)
  | [] => none
  | [c] => if c = quote then some ([], []) else none
  | c :: d :: cs =>
    if c ≠ quote then (quoted? quote (d :: cs)).map fun (text, rest) => (c :: text, rest)
    else if d ≠ quote then some ([], d :: cs)
    else (quoted? quote cs).map fun (text, rest) => (c :: text, rest)

/-- What comes before a closing bracket, and what after it. -/
def bracketed? (cs : List Char) : Option (List Char × List Char) :=
  match cs.dropWhile (· != ']') with
  | [] => none
  | _ :: rest => some (cs.takeWhile (· != ']'), rest)

/-- The token at the start of a text, and what follows it. Literals of bytes, written `x'..'`, are
none of these. -/
def scan? : List Char → Option (Token × List Char)
  | [] => none
  | c :: cs =>
    if c.toLower = 'x' ∧ cs.head? = some '\x27' then none
    else if startsWord c then
      let text := String.ofList (c :: cs.takeWhile isWordChar)
      some (.word (Text.upper text) text, cs.dropWhile isWordChar)
    else if c.isDigit || c == '.' then
      match Numeral.scan? (c :: cs) with
      | some (x, rest) => if rest.head?.any isWordChar then none else some (.number x, rest)
      | none => none
    else if c = '\x27' then
      (quoted? c cs).map fun (text, rest) => (.string (String.ofList text), rest)
    else if c = '"' ∨ c = '\x60' then
      (quoted? c cs).map fun (text, rest) => (.name (String.ofList text), rest)
    else if c = '[' then
      (bracketed? cs).map fun (text, rest) => (.name (String.ofList text), rest)
    else if c ∈ ['(', ')', ',', '+', '-'] then some (.symbol c, cs)
    else none

/-- A token with the text from its start on and the text after it. -/
structure Placed where
  token : Token
  start : List Char
  rest : List Char

/-- The tokens of a text. The fuel is used up by one with every blank and every token. -/
def allWithin? : Nat → List Char → Option (List Placed)
  | _, [] => some []
  | 0, _ :: _ => none
  | fuel + 1, c :: cs =>
    if Numeral.isSpace c then allWithin? fuel cs
    else
      match scan? (c :: cs) with
      | some (token, rest) =>
        (allWithin? fuel rest).map fun tokens => ⟨token, c :: cs, rest⟩ :: tokens
      | none => none

def all? (cs : List Char) : Option (List Placed) := allWithin? cs.length cs

/-- Words with a meaning of their own, which are names only between quotes. -/
def reserved : List String :=
  ["ADD", "ALL", "ALTER", "AND", "AS", "AUTOINCREMENT", "BETWEEN", "CASE", "CHECK", "COLLATE",
    "COMMIT", "CONSTRAINT", "CREATE", "CROSS", "DEFAULT", "DEFERRABLE", "DELETE", "DISTINCT",
    "DROP", "ELSE", "ESCAPE", "EXCEPT", "EXISTS", "FOREIGN", "FROM", "FULL", "GROUP", "HAVING",
    "IN", "INDEX", "INDEXED", "INNER", "INSERT", "INTERSECT", "INTO", "IS", "ISNULL", "JOIN",
    "LEFT", "LIMIT", "NATURAL", "NOT", "NOTHING", "NOTNULL", "NULL", "ON", "OR", "ORDER", "OUTER",
    "PRIMARY", "REFERENCES", "RETURNING", "RIGHT", "SELECT", "SET", "TABLE", "THEN", "TO",
    "TRANSACTION", "UNION", "UNIQUE", "UPDATE", "USING", "VALUES", "WHEN", "WHERE"]

def isName : Token → Bool
  | .word upper _ => upper ∉ reserved
  | .name _ | .string _ => true
  | _ => false

example : ((all? "a$ 'it''s'[b c]`d`".toList).getD []).map (fun t => (t.token.isName, t.rest.length))
    = [(true, 16), (true, 8), (true, 3), (true, 0)] := by
  decide +kernel
example : ["1a", "'a", "[a", "?", "x'00'", "\x00"].all (fun s => (all? s.toList).isNone) = true := by
  decide +kernel

end Token
end TimeSeries.Database
