/-!
Values of a series: 64-bit integers that callers have scaled beforehand. An exact result either
fits or there is none, so nothing ever wraps.
-/
namespace TimeSeries

abbrev Value := Int64

namespace Value

/-- The value of an exact integer, when it lies in the 64-bit range. -/
def ofInt? (n : Int) : Option Value :=
  if -0x8000000000000000 ≤ n ∧ n < 0x8000000000000000 then some (Int64.ofInt n) else none

theorem ofInt?_eq_some_iff {n : Int} {v : Value} : ofInt? n = some v ↔ v.toInt = n := by
  rw [ofInt?]
  split
  · next h =>
    have := Int64.toInt_ofInt_of_le h.1 h.2
    rw [Option.some.injEq, ← Int64.toInt_inj, this]
    exact eq_comm
  · next h =>
    refine ⟨nofun, fun hv => absurd ⟨?_, ?_⟩ h⟩
    · exact hv ▸ Int64.le_toInt v
    · exact hv ▸ Int64.toInt_lt v

@[simp] theorem ofInt?_toInt (v : Value) : ofInt? v.toInt = some v :=
  ofInt?_eq_some_iff.2 rfl

theorem ofInt?_eq_none_iff {n : Int} :
    ofInt? n = none ↔ n < -0x8000000000000000 ∨ 0x8000000000000000 ≤ n := by
  rw [ofInt?]
  split <;> simp <;> omega

/-- The exact sum, when it fits. -/
def add? (a b : Value) : Option Value := ofInt? (a.toInt + b.toInt)

end Value
end TimeSeries
