import TimeSeries.Decimal
import TimeSeries.Text.Ascii

/-!
Settings of the server: where it listens and where its store lies. Each has a default; one that is
given must make sense for its setting, and names that are no setting are passed over. A name may
also point inside a setting, as in `a.b` or `a[0]`, which makes a table or a list of it.
-/
namespace TimeSeries

/-- A setting as it is given. -/
inductive Setting where
  | text (s : String)
  | integer (n : Int)
  /-- A table or a list. -/
  | compound

namespace Setting

/-! ## Names -/

/-- How far a name has been read. -/
inductive Reading where
  /-- A part of the name must start here. -/
  | start
  | part
  /-- After an opening bracket. -/
  | opened
  | minus
  | index (n : Nat)
  /-- After an index and a blank. -/
  | indexed
  /-- After a closing bracket. -/
  | closed

namespace Reading

def isPartChar (c : Char) : Bool := Text.isWordChar c || c == ' ' || c == '-'

def isBlank (c : Char) : Bool := c == ' ' || c == '\t'

/-- The digits of an index, which stays below `2 ^ 63`. -/
def digit? (n : Nat) (c : Char) : Option Reading :=
  let n := n * 10 + (c.toNat - '0'.toNat)
  if c.isDigit ∧ n < 0x8000000000000000 then some (index n) else none

def afterIndex? (c : Char) : Option Reading :=
  if isBlank c then some indexed else if c = ']' then some closed else none

def afterPart? (c : Char) : Option Reading :=
  if c = '.' then some start else if c = '[' then some opened else none

def next? (r : Reading) (c : Char) : Option Reading :=
  match r with
  | start => if isPartChar c then some part else none
  | part => if isPartChar c then some part else afterPart? c
  | opened => if isBlank c then some opened else if c = '-' then some minus else digit? 0 c
  | minus => digit? 0 c
  | index n => if c.isDigit then digit? n c else afterIndex? c
  | indexed => afterIndex? c
  | closed => afterPart? c

def isComplete : Reading → Bool
  | part | closed => true
  | _ => false

end Reading

def isName (name : String) : Bool :=
  (name.toList.foldlM Reading.next? .start).any Reading.isComplete

/-- The setting that a name is about, in lower case, and what the name makes of it. -/
def named? (name : String) (setting : Setting) : Option (String × Setting) :=
  let root := name.toList.takeWhile fun c => c != '.' && c != '['
  if isName name then
    some (Text.lower (String.ofList root), if root = name.toList then setting else compound)
  else none

example : ["port", "Store_Path", " a-b ", "a.b.c", "a[0]", "a[ -1 ][2].b"].all isName = true := by
  decide
example : ["", ".", "a.", ".a", "a[", "a[]", "a[1", "a[1]b", "a[x]", "a/b", "é"].any isName
    = false := by
  decide

/-! ## Values -/

def text? : Setting → Option String
  | text s => some s
  | integer n => some (Decimal.text n)
  | compound => none

/-- Words for one and zero. -/
def word? (s : String) : Option Nat :=
  let lower := Text.lower s
  if lower ∈ ["true", "on", "yes"] then some 1
  else if lower ∈ ["false", "off", "no"] then some 0
  else none

/-- Digits, perhaps after a plus sign, or one of the words. -/
def naturalOfText? (s : String) : Option Nat :=
  match word? s, s.toList with
  | some n, _ => some n
  | none, '+' :: digits => Decimal.nat? digits
  | none, digits => Decimal.nat? digits

def toPort? : Setting → Option (Fin 65536)
  | text s => (naturalOfText? s).bind fun n => if h : n < 65536 then some ⟨n, h⟩ else none
  | integer n => if h : 0 ≤ n ∧ n < 65536 then some ⟨n.toNat, by omega⟩ else none
  | compound => none

end Setting

structure Settings where
  host : String
  port : Fin 65536
  storePath : String

namespace Settings

def default : Settings := ⟨"127.0.0.1", 8080, "~/.local/share/strand/strand.db"⟩

/-- What is given for a setting last, or else its default. -/
def given? {α : Type} (given : List (String × Setting)) (name : String) (read : Setting → Option α)
    (default : α) : Option α :=
  match given.reverse.lookup name with
  | some setting => read setting
  | none => some default

/-- The default settings with some given ones over them. -/
def ofGiven? (given : List (String × Setting)) : Option Settings := do
  let given ← given.mapM fun (name, setting) => setting.named? name
  return {
    host := ← given? given "host" Setting.text? default.host
    port := ← given? given "port" Setting.toPort? default.port
    storePath := ← given? given "store_path" Setting.text? default.storePath }

def address (s : Settings) : String :=
  s.host ++ ":" ++ Decimal.text s.port.val

/-- A path below a directory. One that starts with a slash stays as it is, else a single slash
stands between the two unless the directory is empty or ends in one. -/
def below (directory path : String) : String :=
  if path.toList.head? = some '/' then path
  else match directory.toList.getLast? with
    | none | some '/' => directory ++ path
    | some _ => directory ++ "/" ++ path

/-- A path that starts in `~/` lies below the home directory, when there is one. -/
def expandHome (home : Option String) (path : String) : String :=
  match path.toList, home with
  | '~' :: '/' :: rest, some home => below home (String.ofList rest)
  | _, _ => path

end Settings
end TimeSeries
