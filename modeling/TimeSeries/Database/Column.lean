import TimeSeries.Database.Cell

/-!
Columns of a table: their declared types, which decide how cells are kept and compared, the sequences
that their texts are collated in, and what is demanded of the cells.
-/
namespace TimeSeries

/-- The sequence that the texts of a column are compared in. -/
inductive Collation where
  | binary
  /-- Whatever the case of ASCII letters. -/
  | nocase
  /-- Without the blanks at the end. -/
  | rtrim
  deriving DecidableEq

/-- What is compared by code point in place of a text. Of what stands from a null character on,
`nocase` sees only how long it is. -/
def Collation.key (collation : Collation) (s : String) : String :=
  match collation with
  | binary => s
  | nocase =>
    let head := s.toList.takeWhile (· != '\x00')
    let tail := s.toList.dropWhile (· != '\x00')
    String.ofList (head.map Char.toLower ++
      List.replicate (String.ofList tail).utf8ByteSize '\x00')
  | rtrim => String.ofList (s.toList.reverse.dropWhile (· == ' ')).reverse

structure Column where
  name : String
  /-- The declared type, none if there is none. -/
  declared : Option String
  collation : Collation := .binary
  notNull : Bool := false
  /-- No two rows may hold the same here. -/
  unique : Bool := false
  primary : Bool := false
  /-- The integers that number the rows: a row without one gets the next. -/
  numbering : Bool := false
  /-- The cell of a new row that gives none for this column. -/
  initial : Cell := .null
  deriving DecidableEq

namespace Column

/-- A cell as the column keeps it. -/
def store (c : Column) (cell : Cell) : Cell := (Affinity.ofDeclaration c.declared).apply cell

/-- What is compared in place of a cell of the column. -/
def key (c : Column) : Cell → Cell
  | .text s => .text (c.collation.key s)
  | cell => cell

def le (c : Column) (a b : Cell) : Bool := Cell.le (c.key a) (c.key b)

/-- Before another cell of the column. -/
def lt (c : Column) (a b : Cell) : Bool := !c.le b a

def same (c : Column) (a b : Cell) : Bool := Cell.same (c.key a) (c.key b)

theorem le_trans (c : Column) (x y z : Cell) (h₁ : c.le x y = true) (h₂ : c.le y z = true) :
    c.le x z = true := Cell.le_trans _ _ _ h₁ h₂

theorem le_total (c : Column) (x y : Cell) : (c.le x y || c.le y x) = true := Cell.le_total _ _

theorem key_of_binary {c : Column} (h : c.collation = .binary) (cell : Cell) : c.key cell = cell := by
  cases cell <;> simp [key, h, Collation.key]

/-- Whether a cell of the column holds a text, to the letter. -/
def holds (c : Column) (cell : Cell) (s : String) : Bool := Cell.same cell (c.store (.text s))

theorem eq_of_holds_text {c : Column} {s t : String} (h : c.holds (.text s) t = true) : s = t := by
  unfold holds at h
  cases hc : c.store (.text t) with
  | text t' =>
    rw [hc] at h
    exact (Cell.eq_of_same_text h).trans (Affinity.eq_of_apply_text hc).symm
  | null | integer _ | real _ => simp [hc, Cell.same, Cell.le] at h

/-- Whether a cell of the column compares different from zero; null does not compare. -/
def isNonzero (c : Column) (cell : Cell) : Bool :=
  cell != .null && !c.same cell (c.store (.integer 0))

def schema (c : Column) : ColumnSchema := ⟨c.name, ColumnType.ofDeclaration (c.declared.getD "")⟩

end Column
end TimeSeries
