import TimeSeries.Proofs.Alignment
import TimeSeries.Proofs.Weighting

/-!
Sums of aligned series: one exact total for each date on which every series has a value, or an
overflow if a running total of such a date leaves the range.
-/
namespace TimeSeries

/-- The rows of a pointwise total: one for each date of a set, ascending, with the exact sum of the
summands of the date. -/
structure IsTotal (dates : Date → Prop) (summands : Date → List Int) (rows : List Observation) :
    Prop where
  ascending : rows.Pairwise (·.date < ·.date)
  mem_dates : ∀ d, (∃ o ∈ rows, o.date = d) ↔ dates d
  fit : ∀ o ∈ rows, Composition.SumsFit (summands o.date)
  value_eq : ∀ o ∈ rows, o.value.toInt = (summands o.date).sum

theorem IsTotal.mem_of_mem {dates : Date → Prop} {summands : Date → List Int}
    {rows rows' : List Observation} (h : IsTotal dates summands rows)
    (h' : IsTotal dates summands rows') {o : Observation} (ho : o ∈ rows) : o ∈ rows' := by
  obtain ⟨o', ho', hdate⟩ := (h'.mem_dates o.date).2 ((h.mem_dates o.date).1 ⟨o, ho, rfl⟩)
  have hvalue : o'.value = o.value := by
    apply Int64.toInt_inj.1
    rw [h.value_eq o ho, h'.value_eq o' ho', hdate]
  obtain ⟨date, value⟩ := o
  obtain ⟨date', value'⟩ := o'
  obtain rfl : date' = date := hdate
  obtain rfl : value' = value := hvalue
  exact ho'

/-- Dates and summands determine the rows. -/
theorem IsTotal.unique {dates : Date → Prop} {summands : Date → List Int}
    {rows rows' : List Observation} (h : IsTotal dates summands rows)
    (h' : IsTotal dates summands rows') : rows = rows' :=
  Align.eq_of_ascending h.ascending h'.ascending fun _ => ⟨h.mem_of_mem h', h'.mem_of_mem h⟩

namespace Composition

/-- The values that some series have on a day; of a series without one, zero. -/
def valuesOn (series : List (List Observation)) (day : Date) : List Int :=
  series.map fun s => ((Align.carried? day s).map (·.toInt)).getD 0

theorem valuesOn_eq {series : List (List Observation)} {day : Date} {values : List Value}
    (h : (day, values) ∈ Align.rows series) : valuesOn series day = values.map (·.toInt) := by
  have hvalues := congrArg (List.map fun v : Option Value => (v.map (·.toInt)).getD 0)
    (Align.mem_rows.1 h).2
  simpa only [valuesOn, List.map_map, Function.comp_def, Option.map_some, Option.getD_some]
    using hvalues

/-- The total of a row, beside its date. -/
def sumRow (row : Date × List Value) : Except Error Observation := do
  let total ← sum row.2
  return ⟨row.1, total⟩

theorem sumRow_eq_ok_iff {row : Date × List Value} {o : Observation} : sumRow row = .ok o ↔
    o.date = row.1 ∧ SumsFit (row.2.map (·.toInt)) ∧ o.value.toInt = (row.2.map (·.toInt)).sum := by
  obtain ⟨date, value⟩ := o
  rw [sumRow, bind_eq_ok_iff, ← sum_eq_ok_iff]
  simp [and_comm, eq_comm]

theorem sumRow_eq_error_iff {row : Date × List Value} {e : Error} : sumRow row = .error e ↔
    e = .overflow ∧ ¬ SumsFit (row.2.map (·.toInt)) := by
  rw [← sum_eq_error_iff, sumRow]
  cases sum row.2 <;> simp

/-- The totals of rows, date by date. -/
def sumRows (rows : List (Date × List Value)) : Except Error (List Observation) := rows.mapM sumRow

theorem isTotal_of_sumRows {series : List (List Observation)} {rows : List Observation}
    (h : sumRows (Align.rows series) = .ok rows) :
    IsTotal (Align.Shown series) (valuesOn series) rows := by
  rw [sumRows] at h
  have hrows := mapM_eq_ok_iff.1 h
  have hdates : rows.map (·.date) = (Align.rows series).map (·.1) := by
    apply map_eq_of_forall₂ hrows.flip
    intro o row hsum
    exact (sumRow_eq_ok_iff.1 hsum).1
  have hvalues (o : Observation) (ho : o ∈ rows) :
      SumsFit (valuesOn series o.date) ∧ o.value.toInt = (valuesOn series o.date).sum := by
    obtain ⟨⟨day, values⟩, hmem, hsum⟩ := exists_of_forall₂_right hrows ho
    obtain ⟨rfl, hfit⟩ := sumRow_eq_ok_iff.1 hsum
    rw [valuesOn_eq hmem]
    exact hfit
  refine ⟨?_, ?_, fun o ho => (hvalues o ho).1, fun o ho => (hvalues o ho).2⟩
  · apply List.pairwise_map.1
    rw [hdates]
    exact List.pairwise_map.2 (Align.rows_ascending series)
  · intro d
    have hmem : (∃ o ∈ rows, o.date = d) ↔ ∃ row ∈ Align.rows series, row.1 = d := by
      rw [← List.mem_map, hdates, List.mem_map]
    rw [hmem, ← Align.exists_row_iff]
    simp

/-- The sums of aligned series fail only by a running total that leaves the range. -/
theorem sumRows_eq_error_iff {series : List (List Observation)} {e : Error} :
    sumRows (Align.rows series) = .error e ↔
      e = .overflow ∧ ∃ d, Align.Shown series d ∧ ¬ SumsFit (valuesOn series d) := by
  have hone (row : Date × List Value) (hrow : row ∈ Align.rows series) :
      (∃ o, sumRow row = .ok o) ↔ SumsFit (valuesOn series row.1) := by
    rw [valuesOn_eq hrow]
    cases h : sumRow row with
    | ok o => simp [(sumRow_eq_ok_iff.1 h).2.1]
    | error e => simp [(sumRow_eq_error_iff.1 h).2]
  constructor
  · intro h
    rw [sumRows] at h
    obtain ⟨before, ⟨d, values⟩, after, hsplit, -, hrow⟩ := mapM_eq_error_iff.1 h
    have hmem : (d, values) ∈ Align.rows series := hsplit ▸ by simp
    obtain ⟨rfl, hnot⟩ := sumRow_eq_error_iff.1 hrow
    exact ⟨rfl, d, Align.exists_row_iff.1 ⟨values, hmem⟩, valuesOn_eq hmem ▸ hnot⟩
  · rintro ⟨rfl, d, hshown, hnot⟩
    cases h : sumRows (Align.rows series) with
    | ok rows =>
      have htotal := isTotal_of_sumRows h
      obtain ⟨o, ho, rfl⟩ := (htotal.mem_dates d).2 hshown
      exact absurd (htotal.fit o ho) hnot
    | error e =>
      rw [sumRows] at h
      obtain ⟨_, row, _, -, -, hrow⟩ := mapM_eq_error_iff.1 h
      rw [(sumRow_eq_error_iff.1 hrow).1]

/-- The sums of aligned series are their pointwise total. -/
theorem sumRows_eq_ok_iff {series : List (List Observation)} {rows : List Observation} :
    sumRows (Align.rows series) = .ok rows ↔
      IsTotal (Align.Shown series) (valuesOn series) rows := by
  constructor
  · exact isTotal_of_sumRows
  · intro htotal
    cases h : sumRows (Align.rows series) with
    | ok rows' => rw [htotal.unique (isTotal_of_sumRows h)]
    | error e =>
      obtain ⟨-, d, hshown, hnot⟩ := sumRows_eq_error_iff.1 h
      obtain ⟨o, ho, rfl⟩ := (htotal.mem_dates d).2 hshown
      exact absurd (htotal.fit o ho) hnot

/-! ## Series by series -/

/-- The first of the values still to be added to the total of a date. -/
def addNext (p : Observation × List Value) : Except Error (Observation × List Value) := do
  let value ← fitting (p.1.value.toInt + (p.2.headD 0).toInt)
  return (⟨p.1.date, value⟩, p.2.tail)

/-- All of the values still to be added to the total of a date. -/
def addRest (p : Observation × List Value) : Except Error Observation := do
  let value ← p.2.foldlM (fun total v => fitting (total.toInt + v.toInt)) p.1.value
  return ⟨p.1.date, value⟩

theorem addNext_bind_addRest {p : Observation × List Value} (h : p.2 ≠ []) :
    addNext p >>= addRest = addRest p := by
  obtain ⟨⟨date, total⟩, _ | ⟨v, values⟩⟩ := p
  · exact absurd rfl h
  · rw [addNext, addRest, List.foldlM_cons, List.headD_cons]
    cases fitting (total.toInt + v.toInt) <;> rfl

theorem eq_overflow_of_sum {values : List Value} {total : Value} {e : Error}
    (h : values.foldlM (fun total v => fitting (total.toInt + v.toInt)) total = .error e) :
    e = .overflow := by
  rcases foldlM_fitting values total with ⟨he, -⟩ | ⟨v, hv, -⟩
  · exact Except.error.inj (h.symm.trans he)
  · cases h.symm.trans hv

theorem eq_overflow_of_addRest {p : Observation × List Value} {e : Error}
    (h : addRest p = .error e) : e = .overflow := by
  rcases bind_eq_error_iff.1 h with h | ⟨v, -, h⟩
  · exact eq_overflow_of_sum h
  · cases h

theorem addNext_eq_ok_iff {p q : Observation × List Value} : addNext p = .ok q ↔
    ∃ v, fitting (p.1.value.toInt + (p.2.headD 0).toInt) = .ok v ∧ (⟨p.1.date, v⟩, p.2.tail) = q := by
  simp [addNext, bind_eq_ok_iff]

theorem eq_overflow_of_addNext {p : Observation × List Value} {e : Error}
    (h : addNext p = .error e) : e = .overflow := by
  rcases bind_eq_error_iff.1 h with h | ⟨v, -, h⟩
  · exact (fitting_eq_error_iff.1 h).1
  · cases h

/-- The first column of the dates is added to their totals. -/
theorem addTo_heads {l : List (Observation × List Value)} (h : ∀ p ∈ l, p.2 ≠ []) :
    addTo (l.map (·.1)) ((l.map fun p => (p.1.date, p.2)).filterMap fun (date, values) =>
      values.head?.map (⟨date, ·⟩)) = (l.mapM addNext).map fun r => r.map (·.1) := by
  have hheads : ((l.map fun p => (p.1.date, p.2)).filterMap fun (date, values) =>
      values.head?.map (⟨date, ·⟩)) = l.map fun p => (⟨p.1.date, p.2.headD 0⟩ : Observation) := by
    rw [List.filterMap_map, ← List.filterMap_eq_map]
    apply List.filterMap_congr
    intro p hp
    obtain ⟨o, _ | ⟨v, values⟩⟩ := p
    · exact absurd rfl (h _ hp)
    · rfl
  rw [hheads, addTo, if_pos (by simp)]
  clear hheads h
  induction l with
  | nil => rfl
  | cons p l ih =>
    have hnext : addOn p.1 ⟨p.1.date, p.2.headD 0⟩ = (addNext p).map (·.1) := by
      rw [addOn, if_pos rfl, addNext]
      cases fitting (p.1.value.toInt + (p.2.headD 0).toInt) <;> rfl
    rw [List.map_cons, List.map_cons, List.zip_cons_cons, List.mapM_cons, ih, List.mapM_cons]
    dsimp only
    rw [hnext]
    cases addNext p with
    | error e => rfl
    | ok q => cases l.mapM addNext <;> rfl

theorem foldlM_addTo {width : Nat} {l : List (Observation × List Value)}
    (h : ∀ p ∈ l, p.2.length = width) :
    (Align.columns width (l.map fun p => (p.1.date, p.2))).foldlM addTo (l.map (·.1)) =
      l.mapM addRest := by
  induction width generalizing l with
  | zero =>
    have hrest (p : Observation × List Value) (hp : p ∈ l) : addRest p = pure p.1 := by
      rw [addRest, List.length_eq_zero_iff.1 (h p hp)]
      rfl
    rw [mapM_congr hrest, List.mapM_pure]
    rfl
  | succ width ih =>
    have hne (p : Observation × List Value) (hp : p ∈ l) : p.2 ≠ [] := by
      rintro hnil
      have := h p hp
      rw [hnil] at this
      cases this
    rw [Align.columns, List.foldlM_cons, addTo_heads hne,
      ← mapM_congr fun p hp => addNext_bind_addRest (hne p hp),
      ← mapM_bind_mapM (fun _ _ => eq_overflow_of_addNext) (fun _ _ => eq_overflow_of_addRest)]
    cases hnext : l.mapM addNext with
    | error e => rfl
    | ok l' =>
      have hrows := mapM_eq_ok_iff.1 hnext
      have htails : (l'.map fun q => (q.1.date, q.2)) = l.map fun p => (p.1.date, p.2.tail) := by
        apply map_eq_of_forall₂ hrows.flip
        intro q p hq
        obtain ⟨v, -, rfl⟩ := addNext_eq_ok_iff.1 hq
        rfl
      have hwidth (q : Observation × List Value) (hq : q ∈ l') : q.2.length = width := by
        obtain ⟨p, hp, hpq⟩ := exists_of_forall₂_right hrows hq
        obtain ⟨v, -, rfl⟩ := addNext_eq_ok_iff.1 hpq
        rw [List.length_tail, h p hp, Nat.add_sub_cancel]
      rw [List.map_map]
      show (Align.columns width (l.map fun p => (p.1.date, p.2.tail))).foldlM addTo (l'.map (·.1)) =
        l'.mapM addRest
      rw [← htails, ih hwidth]

/-- The totals of columns, series by series, are those of the rows, date by date. -/
theorem sumAligned_columns {width : Nat} {rows : List (Date × List Value)}
    (h : ∀ row ∈ rows, row.2.length = width + 1) :
    sumAligned (Align.columns (width + 1) rows) = sumRows rows := by
  have hstart : (rows.filterMap fun (date, values) => values.head?.map (⟨date, ·⟩)).map
      (fun o : Observation => (⟨o.date, 0⟩ : Observation)) = rows.map fun row => ⟨row.1, 0⟩ := by
    rw [List.map_filterMap, ← List.filterMap_eq_map]
    apply List.filterMap_congr
    intro row hrow
    obtain ⟨date, _ | ⟨v, values⟩⟩ := row
    · cases h _ hrow
    · rfl
  have hrows : (rows.map fun row => ((⟨row.1, 0⟩ : Observation), row.2)).map
      (fun p => (p.1.date, p.2)) = rows := by
    rw [List.map_map]
    exact List.map_id rows
  have hsums := foldlM_addTo (List.forall_mem_map.2 h :
    ∀ p ∈ rows.map fun row => ((⟨row.1, 0⟩ : Observation), row.2), p.2.length = width + 1)
  rw [hrows, List.map_map, List.mapM_map] at hsums
  rw [Align.columns] at hsums ⊢
  rw [sumAligned, hstart]
  exact hsums

/-- Aligned series all have the same dates, so that adding them up one by one fails for no other
reason than adding up the values of a date. -/
theorem sumAligned_fillForward (series : List (List Observation)) :
    sumAligned (Align.fillForward series) = sumRows (Align.rows series) := by
  cases series with
  | nil => rfl
  | cons s series =>
    apply sumAligned_columns
    rintro ⟨day, values⟩ hrow
    simpa using (congrArg List.length (Align.mem_rows.1 hrow).2).symm

end Composition
end TimeSeries
