/-!
Letter case of the ASCII letters. Every other character is left alone and differs from all others.
-/
namespace TimeSeries.Text

def lower (s : String) : String := String.ofList (s.toList.map Char.toLower)

def upper (s : String) : String := String.ofList (s.toList.map Char.toUpper)

/-- The two texts differ at most in the case of ASCII letters. -/
def sameName (s t : String) : Bool := lower s == lower t

@[simp] theorem sameName_self (s : String) : sameName s s = true := by simp [sameName]

theorem sameName_comm (s t : String) : sameName s t = sameName t s := by
  simp [sameName, Bool.beq_comm]

theorem sameName_trans {s t u : String} (h₁ : sameName s t = true) (h₂ : sameName t u = true) :
    sameName s u = true := by
  simp_all [sameName]

theorem sameName_congr {m n : String} (h : sameName m n = true) (name : String) :
    sameName n name = sameName m name := by
  simp_all [sameName]

theorem sameName_congr_right {m n : String} (h : sameName m n = true) (name : String) :
    sameName name n = sameName name m := by
  rw [sameName_comm, sameName_congr h, sameName_comm]

/-- A letter of the ASCII alphabet, a digit or a low line. -/
def isWordChar (c : Char) : Bool := c.isAlphanum || c == '_'

/-- A name `[A-Za-z_][A-Za-z0-9_]*`. -/
def isIdentifier (s : String) : Bool :=
  match s.toList with
  | [] => false
  | c :: cs => (c.isAlpha || c == '_') && cs.all isWordChar

example : ["_", "a1", "Z_9"].map isIdentifier = [true, true, true] := by decide
example : ["", "1a", "a-b", "é", "a "].map isIdentifier = List.replicate 5 false := by decide

end TimeSeries.Text
