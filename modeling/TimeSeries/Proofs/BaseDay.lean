import TimeSeries.Proofs.AsOf

/-!
The day of the base. The base is looked for among the rows with a value other than zero, a day is
read from all of its rows, so that the two agree on the day of the base unless the day was last
corrected to zero: only a zero ever hides the observation that indices are relative to.
-/
namespace TimeSeries.Primitive

open Recorded (chronology)

/-- The row of a day that was created last. -/
def IsLastOn (rows : List Recorded) (day : Date) (row : Recorded) : Prop :=
  row ∈ rows ∧ row.date = day ∧ ∀ r ∈ rows, r.date = day → r.createdAt ≤ row.createdAt

theorem isLastOn_iff {rows : List Recorded} {day : Date} {row : Recorded}
    (h : chronology.Distinct rows) :
    IsLastOn rows day row ↔ chronology.pick? rows (.exact day) = some row := by
  rw [pick?_exact_eq_some_iff h, IsLastOn, and_assoc]

theorem exists_isLastOn {rows : List Recorded} (h : chronology.Distinct rows) {r : Recorded}
    (hr : r ∈ rows) : ∃ row, IsLastOn rows r.date row := by
  have hcovers : chronology.covers (.exact r.date) r = true := by simp
  obtain ⟨row, hrow⟩ := Chronology.exists_pick? hr hcovers
  exact ⟨row, (isLastOn_iff h).2 hrow⟩

section Base
variable {rows : List Recorded} {base row : Recorded} (hbase : IsBase rows base)
include hbase

/-- What supersedes the base is zero. -/
theorem IsBase.value_eq_zero {r : Recorded} (hr : r ∈ rows) (hdate : r.date = base.date)
    (hcreated : base.createdAt < r.createdAt) : r.value = 0 := by
  by_contra hvalue
  rcases hbase.2.2 r hr hvalue with hlt | ⟨-, hle⟩
  · exact Std.lt_irrefl (hdate ▸ hlt)
  · exact String.not_le.2 hcreated hle

/-- A last row other than zero is the base itself. -/
theorem IsBase.eq_of_isLastOn (h : chronology.Distinct rows)
    (hlast : IsLastOn rows base.date row) (hvalue : row.value ≠ 0) : row = base := by
  obtain ⟨hrow, hdate, hcreated⟩ := hlast
  have hle : row.createdAt ≤ base.createdAt :=
    String.not_lt.1 fun hlt => hvalue (hbase.value_eq_zero hrow hdate hlt)
  have hge : base.createdAt ≤ row.createdAt := hcreated base hbase.1 rfl
  exact h.eq_of_ties hrow hbase.1 (Recorded.ties_iff.2 ⟨hdate, String.le_antisymm hle hge⟩)

end Base

section Answers
variable {source : Source} {binding : Binding} {rows : List Recorded} {day : Date} {v : Value}
  (h : Answers source binding rows)
include h

/-- A base that is answered is the base of the table. -/
theorem exists_isBase_of_earliest
    (hbase : (value source binding .earliest).outcome = .ok [⟨day, v⟩]) :
    ∃ base, IsBase rows base ∧ base.date = day ∧ base.value = v := by
  rw [outcome_earliest h, nonempty_eq_ok_iff] at hbase
  cases hp : chronology.pick? rows .base with
  | none => simp [hp] at hbase
  | some base =>
    have hobs : base.toObservation = ⟨day, v⟩ := by simpa [hp] using hbase.1
    exact ⟨base, (isBase_iff h.chronology_distinct).2 hp, congrArg (·.date) hobs,
      congrArg (·.value) hobs⟩

/-- A day with rows has the value of the last one. -/
theorem outcome_value_of_isLastOn {row : Recorded} (hlast : IsLastOn rows day row) :
    (value source binding (.on day)).outcome = .ok [⟨day, row.value⟩] := by
  have hd := h.chronology_distinct
  rw [outcome_value_on h, valueOn?, pick?_upTo_of_exact hd ((isLastOn_iff hd).1 hlast)]
  rfl

theorem outcome_index_of_isLastOn {base row : Recorded} (hbase : IsBase rows base)
    (hlast : IsLastOn rows day row) {w : Value}
    (hw : relativeTo base.value ⟨day, row.value⟩ = .ok ⟨day, w⟩) :
    (index source binding (.on day)).outcome = .ok [⟨day, w⟩] := by
  rw [outcome_index_of_base h ((isBase_iff h.chronology_distinct).1 hbase),
    outcome_value_of_isLastOn h hlast, ok_bind, if_neg (by simp)]
  simp [hw]

end Answers

/-- A base value is one hundred percent of itself. -/
theorem relativeTo_self {base : Value} (hbase : base ≠ 0) (day : Date) :
    relativeTo base ⟨day, base⟩ = .ok ⟨day, 100000⟩ := by
  rw [relativeTo_eq_ok_iff_isIndexOf hbase]
  exact ⟨rfl, (Int.mul_tdiv_cancel_left 100000 (toInt_ne_zero hbase)).symm⟩

/-- On the day of the base the last row of the day counts. If that is not zero, it is the base and
the index is one hundred; if it is, both value and index are zero. -/
theorem value_and_index_on_base {source : Source} {binding : Binding} {rows : List Recorded}
    (h : Answers source binding rows) {day : Date} {v : Value}
    (hbase : (value source binding .earliest).outcome = .ok [⟨day, v⟩]) :
    ∃ base row, IsBase rows base ∧ base.date = day ∧ base.value = v ∧ IsLastOn rows day row ∧
      (∀ r ∈ rows, r.date = day → base.createdAt < r.createdAt → r.value = 0) ∧
      (row.value ≠ 0 → row = base ∧
        (value source binding (.on day)).outcome = .ok [⟨day, v⟩] ∧
        (index source binding (.on day)).outcome = .ok [⟨day, 100000⟩]) ∧
      (row.value = 0 →
        (value source binding (.on day)).outcome = .ok [⟨day, 0⟩] ∧
        (index source binding (.on day)).outcome = .ok [⟨day, 0⟩]) := by
  have hd := h.chronology_distinct
  obtain ⟨base, hisBase, rfl, rfl⟩ := exists_isBase_of_earliest h hbase
  obtain ⟨row, hlast⟩ := exists_isLastOn hd hisBase.1
  refine ⟨base, row, hisBase, rfl, rfl, hlast, fun r => hisBase.value_eq_zero, ?_, ?_⟩
  · intro hvalue
    obtain rfl := hisBase.eq_of_isLastOn hd hlast hvalue
    exact ⟨rfl, outcome_value_of_isLastOn h hlast,
      outcome_index_of_isLastOn h hisBase hlast (relativeTo_self hvalue _)⟩
  · intro hzero
    have hvalue := outcome_value_of_isLastOn h hlast
    rw [hzero] at hvalue
    refine ⟨hvalue, outcome_index_of_isLastOn h hisBase hlast ?_⟩
    rw [hzero]
    exact relativeTo_zero hisBase.2.1 rfl

theorem value_and_index_on_base_corrected :
    let source := Source.ofTables fun _ => correctedRows
    let binding : Binding := .standard "prices"
    let day : Date := ⟨2024, 2, 4, by decide⟩
    Answers source binding correctedRows ∧
      (value source binding .earliest).outcome = .ok [⟨day, -3⟩] ∧
      (value source binding (.on day)).outcome = .ok [⟨day, -3⟩] ∧
      (index source binding (.on day)).outcome = .ok [⟨day, 100000⟩] := by
  intro source binding day
  have h : Answers source binding correctedRows := by
    apply Source.answers_ofTables
    decide
  have hbase : (value source binding .earliest).outcome = .ok [⟨day, -3⟩] := by decide +kernel
  obtain ⟨base, row, -, -, -, -, -, hkept, hzero⟩ := value_and_index_on_base h hbase
  by_cases hrow : row.value = 0
  · have hvalue : (value source binding (.on day)).outcome ≠ .ok [⟨day, 0⟩] := by decide +kernel
    exact absurd (hzero hrow).1 hvalue
  · exact ⟨h, hbase, (hkept hrow).2⟩

/-- A value that was corrected to zero the day after. -/
def zeroedRows : List Recorded :=
  [⟨⟨⟨2024, 2, 2, by decide⟩, 5⟩, "2024-02-02T09"⟩,
    ⟨⟨⟨2024, 2, 2, by decide⟩, 0⟩, "2024-02-03T09"⟩]

/-- A zero hides the base on its day, and indices go on being relative to it. -/
theorem not_value_on_base_of_answers :
    ¬ ∀ (source : Source) (binding : Binding) (rows : List Recorded),
      Answers source binding rows → ∀ day v,
        (value source binding .earliest).outcome = .ok [⟨day, v⟩] →
          (value source binding (.on day)).outcome = .ok [⟨day, v⟩] ∧
            (index source binding (.on day)).outcome = .ok [⟨day, 100000⟩] := by
  intro hagree
  let source := Source.ofTables fun _ => zeroedRows
  let binding : Binding := .standard "prices"
  let day : Date := ⟨2024, 2, 2, by decide⟩
  have h : Answers source binding zeroedRows := by
    apply Source.answers_ofTables
    decide
  have hbase : (value source binding .earliest).outcome = .ok [⟨day, 5⟩] := by decide +kernel
  have hvalue : (value source binding (.on day)).outcome = .ok [⟨day, 0⟩] := by decide +kernel
  have hkept := (hagree source binding zeroedRows h day 5 hbase).1
  cases hvalue.symm.trans hkept

end TimeSeries.Primitive
