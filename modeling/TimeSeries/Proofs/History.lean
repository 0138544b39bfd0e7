import TimeSeries.Primitive
import TimeSeries.Proofs.Lookups
import TimeSeries.Proofs.MapEntries
import TimeSeries.Proofs.StepFunction

/-!
A table as a step function of the day: the value of the latest row up to the day, superseded rows
aside. The observations of a range, with the value carried to its first day in front, are the same
step function on the days of the range.
-/
namespace TimeSeries.Primitive

open Chronology (pick?_eq_some_iff pick?_eq_none_iff pick?_concat pick?_congr upTo_iff)
open Recorded (chronology)

variable {rows : List Recorded} {day : Date}

theorem date_of_pick? {row : Recorded} (h : chronology.pick? rows (.exact day) = some row) :
    row.date = day := by
  exact Chronology.covers_exact.1 (Chronology.mem_of_pick? h).2

/-- Of rows of the same date the order sees the creation only. -/
theorem order_iff_of_date_eq {older row : Recorded} (h : older.date = row.date) :
    chronology.order (.exact day) older row = true ↔ ¬ row.createdAt < older.createdAt := by
  simp only [Chronology.order, upTo_iff, Recorded.date_chronology, Recorded.notAfter_chronology,
    decide_eq_true_eq, String.not_lt, h]
  constructor
  · rintro (hlt | ⟨-, hle⟩)
    · exact absurd hlt Std.lt_irrefl
    · exact hle
  · intro hle
    exact .inr ⟨trivial, hle⟩

/-- The row in force on a date is the one that a lookup of the date finds. -/
theorem find?_supersede (rows : List Recorded) (day : Date) :
    (rows.foldl supersede .empty).find? day = chronology.pick? rows (.exact day) := by
  induction rows using List.reverseRecOn with
  | nil => rfl
  | append_singleton rows row ih =>
    rw [List.foldl_append, List.foldl_cons, List.foldl_nil, pick?_concat]
    simp only [Chronology.covers_exact, Recorded.date_chronology]
    by_cases hday : row.date = day
    · subst hday
      rw [if_pos rfl, supersede, ih]
      cases hp : chronology.pick? rows (.exact row.date) with
      | none => simp [Greatest.later]
      | some older =>
        simp only [Greatest.later, order_iff_of_date_eq (date_of_pick? hp)]
        by_cases hlt : row.createdAt < older.createdAt
        · simp [hlt, ih, hp]
        · simp [hlt]
    · rw [if_neg hday, ← ih, supersede]
      split
      · split
        · rfl
        · exact SortedMap.find?_insert_of_ne _ (Ne.symm hday) _
      · exact SortedMap.find?_insert_of_ne _ (Ne.symm hday) _

theorem mem_supersede {e : Date × Recorded} :
    e ∈ (rows.foldl supersede .empty).toList ↔ chronology.pick? rows (.exact e.1) = some e.2 := by
  rw [← find?_supersede, SortedMap.find?_eq_some_iff]

/-- A date is listed with the latest created of its rows. -/
theorem mem_latestPerDate {o : Observation} : o ∈ latestPerDate rows ↔
    ∃ row, chronology.pick? rows (.exact o.date) = some row ∧ row.toObservation = o := by
  rw [latestPerDate, List.mem_map]
  constructor
  · rintro ⟨e, he, rfl⟩
    rw [mem_supersede] at he
    refine ⟨e.2, ?_, rfl⟩
    rw [date_of_pick? he]
    exact he
  · rintro ⟨row, hrow, rfl⟩
    exact ⟨(row.date, row), mem_supersede.2 hrow, rfl⟩

theorem latestPerDate_ascending (rows : List Recorded) :
    (latestPerDate rows).Pairwise (·.date < ·.date) := by
  rw [latestPerDate, List.pairwise_map]
  apply List.Pairwise.imp_of_mem _ (rows.foldl supersede .empty).ascending
  intro e e' he he' hlt
  rw [date_of_pick? (mem_supersede.1 he), date_of_pick? (mem_supersede.1 he')]
  exact hlt

/-- The order in which a table is read does not matter. -/
theorem latestPerDate_congr {rows' : List Recorded} (h : chronology.Distinct rows)
    (h' : chronology.Distinct rows') (hmem : ∀ row, row ∈ rows ↔ row ∈ rows') :
    latestPerDate rows = latestPerDate rows' := by
  apply Align.eq_of_ascending (latestPerDate_ascending _) (latestPerDate_ascending _)
  intro o
  simp only [mem_latestPerDate, pick?_congr h h' fun row _ => hmem row]

theorem latestPerDate_perm {rows' : List Recorded} (h : chronology.Distinct rows)
    (hp : rows.Perm rows') : latestPerDate rows = latestPerDate rows' :=
  latestPerDate_congr h (h.perm hp) fun _ => hp.mem_iff

/-- The value of a table on a day: that of the row of the latest date up to it, created last. -/
def valueOn? (rows : List Recorded) (day : Date) : Option Value :=
  (chronology.pick? rows (.onOrBefore day)).map (·.value)

/-- Put the value of the first day in front, unless the day is listed. -/
def fromFirst (rows : List Recorded) (first : Date) (found : List Observation) :
    List Observation :=
  if found.head?.map (·.date) = some first then found
  else (valueOn? rows first).toList.map (fun v => ⟨first, v⟩) ++ found

/-- The observations of a range of days. -/
def history (rows : List Recorded) (first last : Date) : List Observation :=
  fromFirst rows first
    (latestPerDate (rows.filter (chronology.covers (.range first last))))

theorem pick?_upTo_eq_some_iff (h : chronology.Distinct rows) {row : Recorded} :
    chronology.pick? rows (.onOrBefore day) = some row ↔ (row ∈ rows ∧ row.date ≤ day) ∧
      ∀ r ∈ rows, r.date ≤ day →
        r.date < row.date ∨ r.date = row.date ∧ r.createdAt ≤ row.createdAt := by
  simp [pick?_eq_some_iff h, Chronology.order, upTo_iff]

theorem pick?_exact_eq_some_iff (h : chronology.Distinct rows) {row : Recorded} :
    chronology.pick? rows (.exact day) = some row ↔ (row ∈ rows ∧ row.date = day) ∧
      ∀ r ∈ rows, r.date = day → r.createdAt ≤ row.createdAt := by
  simp only [pick?_eq_some_iff h, Chronology.covers_exact, Chronology.order, upTo_iff,
    Recorded.date_chronology, Recorded.notAfter_chronology, decide_eq_true_eq]
  constructor
  · rintro ⟨⟨hrow, rfl⟩, hbest⟩
    exact ⟨⟨hrow, rfl⟩, fun r hr hdate => by simpa [hdate, Std.lt_irrefl] using hbest r hr hdate⟩
  · rintro ⟨⟨hrow, rfl⟩, hbest⟩
    exact ⟨⟨hrow, rfl⟩, fun r hr hdate => .inr ⟨hdate, hbest r hr hdate⟩⟩

/-- The row of a day is also the latest one up to the day. -/
theorem pick?_upTo_of_exact (h : chronology.Distinct rows) {row : Recorded}
    (hp : chronology.pick? rows (.exact day) = some row) :
    chronology.pick? rows (.onOrBefore day) = some row := by
  obtain ⟨⟨hrow, rfl⟩, hbest⟩ := (pick?_exact_eq_some_iff h).1 hp
  refine (pick?_upTo_eq_some_iff h).2 ⟨⟨hrow, Std.le_refl _⟩, ?_⟩
  intro r hr hdate
  by_cases heq : r.date = row.date
  · exact .inr ⟨heq, hbest r hr heq⟩
  · exact .inl (Std.lt_of_le_of_ne hdate heq)

section Range
variable {first last : Date}

theorem mem_inRange {row : Recorded} :
    row ∈ rows.filter (chronology.covers (.range first last)) ↔
      row ∈ rows ∧ first ≤ row.date ∧ row.date ≤ last := by
  simp

theorem exists_row_of_mem_latestPerDate {o : Observation} (h : o ∈ latestPerDate rows) :
    ∃ row ∈ rows, row.toObservation = o := by
  obtain ⟨row, hrow, rfl⟩ := mem_latestPerDate.1 h
  exact ⟨row, (Chronology.mem_of_pick? hrow).1, rfl⟩

/-- Observations that start late leave the first day to the value carried to it. -/
theorem first_lt_of_head {found : List Observation} (hasc : found.Pairwise (·.date < ·.date))
    (hfrom : ∀ o ∈ found, first ≤ o.date) (hhead : found.head?.map (·.date) ≠ some first)
    {o : Observation} (ho : o ∈ found) : first < o.date := by
  cases found with
  | nil => cases ho
  | cons p found =>
    have hp : first < p.date := by
      apply Std.lt_of_le_of_ne (hfrom p List.mem_cons_self)
      rintro rfl
      exact hhead rfl
    rcases List.mem_cons.1 ho with rfl | ho
    · exact hp
    · exact Std.lt_trans hp ((List.pairwise_cons.1 hasc).1 o ho)

theorem mem_fromFirst {found : List Observation} {o : Observation} :
    o ∈ fromFirst rows first found ↔ o ∈ found ∨
      found.head?.map (·.date) ≠ some first ∧ o.date = first ∧
        valueOn? rows first = some o.value := by
  rw [fromFirst]
  split
  · next h => simp [h]
  · next h =>
    obtain ⟨date, value⟩ := o
    simp only [List.mem_append, List.mem_map, Option.mem_toList, Observation.mk.injEq]
    grind

theorem fromFirst_ascending {found : List Observation}
    (hasc : found.Pairwise (·.date < ·.date)) (hfrom : ∀ o ∈ found, first ≤ o.date) :
    (fromFirst rows first found).Pairwise (·.date < ·.date) := by
  rw [fromFirst]
  split
  · exact hasc
  · next hhead =>
    cases valueOn? rows first with
    | none => exact hasc
    | some v => exact List.pairwise_cons.2 ⟨fun o => first_lt_of_head hasc hfrom hhead, hasc⟩

theorem date_of_mem_inRange {o : Observation}
    (h : o ∈ latestPerDate (rows.filter (chronology.covers (.range first last)))) :
    ∃ row ∈ rows, row.toObservation = o ∧ first ≤ o.date ∧ o.date ≤ last := by
  obtain ⟨row, hrow, rfl⟩ := exists_row_of_mem_latestPerDate h
  obtain ⟨hrow, hdate⟩ := mem_inRange.1 hrow
  exact ⟨row, hrow, rfl, hdate⟩

theorem history_ascending (rows : List Recorded) (first last : Date) :
    (history rows first last).Pairwise (·.date < ·.date) := by
  apply fromFirst_ascending (latestPerDate_ascending _)
  intro o ho
  obtain ⟨_, _, _, hfirst, -⟩ := date_of_mem_inRange ho
  exact hfirst

/-- Up to a day before all rows a range has no observation either. -/
theorem carried?_history_of_none (hnone : ∀ row ∈ rows, ¬ row.date ≤ day) (hfirst : first ≤ day) :
    Align.carried? day (history rows first last) = none := by
  have hempty : valueOn? rows first = none := by
    rw [valueOn?, Option.map_eq_none_iff, pick?_eq_none_iff]
    intro row hrow
    rw [← Bool.not_eq_true, Chronology.covers_onOrBefore]
    exact fun hle => hnone row hrow (Std.le_trans hle hfirst)
  rw [Align.carried?, Align.lastValue?_eq_none_iff]
  intro o ho
  rcases mem_fromFirst.1 ho with ho | ⟨-, -, hv⟩
  · obtain ⟨row, hrow, rfl, -⟩ := date_of_mem_inRange ho
    simpa using hnone row hrow
  · rw [hempty] at hv
    cases hv

section Picked
variable (h : chronology.Distinct rows) {row : Recorded}
  (hp : chronology.pick? rows (.onOrBefore day) = some row)
include h hp

theorem date_le_of_pick? {r : Recorded} (hr : r ∈ rows) (hday : r.date ≤ day) :
    r.date ≤ row.date := by
  rcases ((pick?_upTo_eq_some_iff h).1 hp).2 r hr hday with hlt | ⟨heq, -⟩
  · exact Std.le_of_lt hlt
  · exact heq ▸ Std.le_refl _

/-- A row within the range is listed itself. -/
theorem carried?_history_of_first_le (hrange : first ≤ row.date) (hlast : day ≤ last) :
    Align.carried? day (history rows first last) = some row.value := by
  obtain ⟨⟨hrow, hday⟩, hbest⟩ := (pick?_upTo_eq_some_iff h).1 hp
  rw [Align.carried?_eq_some_iff_of_ascending (history_ascending _ _ _)]
  refine ⟨row.toObservation, mem_fromFirst.2 (.inl ?_), hday, rfl, ?_⟩
  · refine mem_latestPerDate.2 ⟨row, (pick?_exact_eq_some_iff (h.filter _)).2 ?_, rfl⟩
    refine ⟨⟨mem_inRange.2 ⟨hrow, hrange, Std.le_trans hday hlast⟩, rfl⟩, ?_⟩
    intro r hr hdate
    have := hbest r (mem_inRange.1 hr).1 (hdate ▸ hday)
    simpa [hdate, Std.lt_irrefl] using this
  · intro p hmem hpday
    rcases mem_fromFirst.1 hmem with hmem | ⟨-, hdate, -⟩
    · obtain ⟨r, hr, rfl, -⟩ := date_of_mem_inRange hmem
      exact date_le_of_pick? h hp hr hpday
    · exact hdate ▸ hrange

/-- The value of an earlier row is put in front, and nothing is listed up to the day. -/
theorem carried?_history_of_lt_first (hrange : row.date < first) (hfirst : first ≤ day) :
    Align.carried? day (history rows first last) = some row.value := by
  obtain ⟨⟨hrow, hday⟩, hbest⟩ := (pick?_upTo_eq_some_iff h).1 hp
  have hlater (p : Observation)
      (hmem : p ∈ latestPerDate (rows.filter (chronology.covers (.range first last)))) :
      ¬ p.date ≤ day := by
    intro hpday
    obtain ⟨r, hr, rfl, hfrom, -⟩ := date_of_mem_inRange hmem
    exact Std.not_le.2 hrange (Std.le_trans hfrom (date_le_of_pick? h hp hr hpday))
  rw [Align.carried?_eq_some_iff_of_ascending (history_ascending _ _ _)]
  refine ⟨⟨first, row.value⟩, mem_fromFirst.2 (.inr ⟨?_, rfl, ?_⟩), hfirst, rfl, ?_⟩
  · intro hhead
    obtain ⟨p, hmem, hdate⟩ := Option.map_eq_some_iff.1 hhead
    exact hlater p (List.mem_of_mem_head? hmem) (hdate ▸ hfirst)
  · rw [valueOn?, (pick?_upTo_eq_some_iff h).2 ⟨⟨hrow, Std.le_of_lt hrange⟩, ?_⟩]
    · rfl
    · intro r hr hrfirst
      exact hbest r hr (Std.le_trans hrfirst hfirst)
  · intro p hmem hpday
    rcases mem_fromFirst.1 hmem with hmem | ⟨-, hdate, -⟩
    · exact absurd hpday (hlater p hmem)
    · exact hdate ▸ Std.le_refl _

end Picked

/-- The observations of a range have the values of the table on every day of the range. -/
theorem carried?_history (h : chronology.Distinct rows) (hfirst : first ≤ day)
    (hlast : day ≤ last) : Align.carried? day (history rows first last) = valueOn? rows day := by
  rw [valueOn?]
  cases hp : chronology.pick? rows (.onOrBefore day) with
  | none =>
    apply carried?_history_of_none _ hfirst
    intro row hrow
    have := pick?_eq_none_iff.1 hp row hrow
    simpa [← Bool.not_eq_true] using this
  | some row =>
    by_cases hrange : first ≤ row.date
    · exact carried?_history_of_first_le h hp hrange hlast
    · exact carried?_history_of_lt_first h hp (Std.not_le.1 hrange) hfirst

end Range

end TimeSeries.Primitive
