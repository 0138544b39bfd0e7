import TimeSeries.Database.Column
import TimeSeries.Database.Token

/-!
Declarations of columns: a type, which may be left out, and clauses after it. A type is one or more
names, perhaps with one or two numbers in parentheses, and counts as it is written. The clauses are
`NULL`, `NOT NULL`, `UNIQUE`, `PRIMARY KEY`, `COLLATE` with a collation and `DEFAULT` with a literal,
each perhaps named by `CONSTRAINT`. A declaration with any other clause is refused.
-/
namespace TimeSeries

namespace Database.Declaration

/-! ## The type -/

/-- What follows a number with perhaps a sign. -/
def afterNumber? : List Token → Option (List Token)
  | .symbol '+' :: .number _ :: rest | .symbol '-' :: .number _ :: rest | .number _ :: rest =>
    some rest
  | _ => none

/-- What follows one or two numbers in parentheses. -/
def afterSizes? : List Token → Option (List Token)
  | .symbol '(' :: rest =>
    match afterNumber? rest with
    | some (.symbol ')' :: rest) => some rest
    | some (.symbol ',' :: rest) =>
      match afterNumber? rest with
      | some (.symbol ')' :: rest) => some rest
      | _ => none
    | _ => none
  | _ => none

/-- How many tokens at the start are the type. -/
def typeLength (tokens : List Token) : Nat :=
  let rest := tokens.dropWhile Token.isName
  if rest.length = tokens.length then 0
  else tokens.length - ((afterSizes? rest).getD rest).length

def isQuote (c : Char) : Bool := c ∈ ['"', '\x27', '\x60', '[']

/-- A type between quotes without them. One that starts with a quote and has no other before its
last character loses both ends, whatever they are. -/
def unquoted : List Char → List Char
  | [] => []
  | c :: cs =>
    if !isQuote c then c :: cs
    else if cs.dropLast.any isQuote then
      ((Token.quoted? (if c = '[' then ']' else c) cs).map Prod.fst).getD (c :: cs)
    else cs.dropLast

/-- Tokens as they are written, with the blanks between them. -/
def written (tokens : List Token.Placed) : List Char :=
  match tokens.head?, tokens.getLast? with
  | some first, some last => first.start.take (first.start.length - last.rest.length)
  | _, _ => []

/-! ## Clauses -/

/-- A literal, and what follows it; words stand for themselves. -/
def literal? : List Token → Option (Cell × List Token)
  | .string s :: rest | .name s :: rest => some (.text s, rest)
  | .symbol '-' :: .number x :: rest => some (.ofNumeral { x with negative := true }, rest)
  | .symbol '+' :: .number x :: rest | .number x :: rest => some (.ofNumeral x, rest)
  | .word "NULL" _ :: rest => some (.null, rest)
  | .word "TRUE" _ :: rest => some (.integer 1, rest)
  | .word "FALSE" _ :: rest => some (.integer 0, rest)
  | .word upper text :: rest =>
    if upper ∈ "CURRENT_DATE" :: "CURRENT_TIME" :: "CURRENT_TIMESTAMP" :: Token.reserved then none
    else some (.text text, rest)
  | _ => none

/-- The ascending key of a column of type `INTEGER`, and no other, numbers the rows. -/
def ascendingKey (c : Column) : Column :=
  { c with
    primary := true
    unique := true
    numbering := (c.declared.map Text.upper) == some "INTEGER" }

def autoincrement? (c : Column) : List Token → Option (Column × List Token)
  | .word "AUTOINCREMENT" _ :: rest => if c.numbering then some (c, rest) else none
  | rest => some (c, rest)

def primaryKey? (c : Column) : List Token → Option (Column × List Token)
  | .word "DESC" _ :: rest => some ({ c with primary := true, unique := true }, rest)
  | .word "ASC" _ :: rest => autoincrement? (ascendingKey c) rest
  | rest => autoincrement? (ascendingKey c) rest

/-- A collation by its name; there are no others. -/
def collation? : Token → Option Collation
  | .word _ name | .name name | .string name =>
    match Text.upper name with
    | "BINARY" => some .binary
    | "NOCASE" => some .nocase
    | "RTRIM" => some .rtrim
    | _ => none
  | _ => none

def clause? (c : Column) : List Token → Option (Column × List Token)
  | .word "CONSTRAINT" _ :: name :: rest => if name.isName then some (c, rest) else none
  | .word "NULL" _ :: rest => some (c, rest)
  | .word "NOT" _ :: .word "NULL" _ :: rest => some ({ c with notNull := true }, rest)
  | .word "UNIQUE" _ :: rest => some ({ c with unique := true }, rest)
  | .word "PRIMARY" _ :: .word "KEY" _ :: rest => if c.primary then none else primaryKey? c rest
  | .word "COLLATE" _ :: name :: rest =>
    (collation? name).map fun collation => ({ c with collation := collation }, rest)
  | .word "DEFAULT" _ :: rest =>
    (literal? rest).map fun (cell, rest) => ({ c with initial := cell }, rest)
  | _ => none

/-- One clause after the other; the fuel is used up by one with each. -/
def clausesWithin? : Nat → Column → List Token → Option Column
  | _, c, [] => some c
  | 0, _, _ :: _ => none
  | fuel + 1, c, token :: tokens =>
    match clause? c (token :: tokens) with
    | some (c, rest) => clausesWithin? fuel c rest
    | none => none

def clauses? (c : Column) (tokens : List Token) : Option Column :=
  clausesWithin? tokens.length c tokens

end Database.Declaration

open Database in
/-- The column that a declaration describes, none if it is refused. -/
def Column.ofDeclaration? (name declaration : String) : Option Column := do
  let tokens ← Token.all? declaration.toList
  let count := Declaration.typeLength (tokens.map (·.token))
  let declared := Declaration.unquoted (Declaration.written (tokens.take count))
  let column := {
    name := name
    declared := if count = 0 then none else some (String.ofList declared) }
  Declaration.clauses? column ((tokens.drop count).map (·.token))

example : (["", "NOT NULL", "REAL\nNot  Null", "DECIMAL( 10 , 5 ) not null", "[my t]"].map fun s =>
      (Column.ofDeclaration? "c" s).map fun c => (c.declared, c.notNull))
    = [(none, false), (none, true), (some "REAL", true), (some "DECIMAL( 10 , 5 )", true),
        (some "my t", false)].map some := by
  decide +kernel
example : (["INTEGER PRIMARY KEY", "integer primary key asc autoincrement", "INT PRIMARY KEY",
        "INTEGER PRIMARY KEY DESC", "TEXT UNIQUE"].map fun s =>
      (Column.ofDeclaration? "c" s).map fun c => (c.unique, c.numbering))
    = [(true, true), (true, true), (true, false), (true, false), (true, false)].map some := by
  decide +kernel
example : (["TEXT COLLATE nocase", "COLLATE 'RTRIM' UNIQUE", "TEXT COLLATE \"Rtrim\" COLLATE binary",
        "TEXT COLLATE", "COLLATE unicode"].map fun s =>
      (Column.ofDeclaration? "c" s).map (·.collation))
    = [some .nocase, some .rtrim, some .binary, none, none] := by
  decide +kernel
example : ["NOT", "NOT NULL TEXT", "TEXT(", "TEXT(1,2,3)", "INT PRIMARY KEY AUTOINCREMENT",
      "INTEGER PRIMARY KEY PRIMARY KEY", "TEXT CHECK (1)", "\"a"].all
    (fun s => (Column.ofDeclaration? "c" s).isNone) = true := by
  decide +kernel

end TimeSeries
