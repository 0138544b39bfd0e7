import Mathlib.Data.List.FinRange
import TimeSeries.Proofs.Alignment

/-!
Aligned series. All are listed on the dates that are shown, each with the values it has on them, so
one series of the alignment depends on the others by these dates alone: their order does not matter,
and what is aligned stays as it is.
-/
namespace TimeSeries.Align

/-- The dates that are shown, in ascending order. -/
def dates (series : List (List Observation)) : List Date := (rows series).map (·.1)

/-- A series on some days, with the value it has on each of them. -/
def onDays (days : List Date) (s : List Observation) : List Observation :=
  days.filterMap fun day => (carried? day s).map fun v => ⟨day, v⟩

/-- The series has the value on the day: it is listed for the latest date up to the day, and of
several for that date it is the last one. -/
def HasOn (s : List Observation) (day : Date) (v : Value) : Prop :=
  ∃ before o after, s = before ++ o :: after ∧ o.date ≤ day ∧ o.value = v ∧
    (∀ p ∈ before, p.date ≤ day → p.date ≤ o.date) ∧ ∀ p ∈ after, p.date ≤ day → p.date < o.date

section Days
variable {days : List Date} {s : List Observation} {o : Observation} {day : Date}

theorem mem_onDays : o ∈ onDays days s ↔ o.date ∈ days ∧ carried? o.date s = some o.value := by
  obtain ⟨date, v⟩ := o
  simp only [onDays, List.mem_filterMap, Option.map_eq_some_iff, Observation.mk.injEq]
  grind

variable (hstarted : ∀ day ∈ days, (carried? day s).isSome)
include hstarted

theorem dates_onDays : (onDays days s).map (·.date) = days := by
  induction days with
  | nil => rfl
  | cons day days ih =>
    obtain ⟨hday, hrest⟩ := List.forall_mem_cons.1 hstarted
    obtain ⟨v, hv⟩ := Option.isSome_iff_exists.1 hday
    have ih := ih hrest
    rw [onDays] at ih
    rw [onDays, List.filterMap_cons, hv, Option.map_some]
    dsimp only
    rw [List.map_cons, ih]

theorem exists_mem_onDays_iff : (∃ o ∈ onDays days s, o.date = day) ↔ day ∈ days := by
  rw [← List.mem_map, dates_onDays hstarted]

/-- On the days it is listed for a series keeps its values. -/
theorem carried?_onDays (hdays : days.Pairwise (· < ·)) (hday : day ∈ days) :
    carried? day (onDays days s) = carried? day s := by
  obtain ⟨v, hv⟩ := Option.isSome_iff_exists.1 (hstarted day hday)
  have hascending : (onDays days s).Pairwise (·.date < ·.date) := by
    rw [← List.pairwise_map, dates_onDays hstarted]
    exact hdays
  rw [hv, carried?_eq_some_iff_of_ascending hascending]
  exact ⟨⟨day, v⟩, mem_onDays.2 ⟨hday, hv⟩, Std.le_refl _, rfl, fun _ _ hle => hle⟩

theorem onDays_onDays (hdays : days.Pairwise (· < ·)) :
    onDays days (onDays days s) = onDays days s := by
  rw [onDays, onDays]
  apply List.filterMap_congr
  intro day hday
  rw [← onDays, carried?_onDays hstarted hdays hday]

end Days

section Aligned
variable {series : List (List Observation)} {day : Date}

theorem mem_dates : day ∈ dates series ↔ Shown series day := by
  rw [← exists_row_iff, dates]
  simp

theorem dates_ascending (series : List (List Observation)) :
    (dates series).Pairwise (· < ·) := List.pairwise_map.2 (rows_ascending series)

/-- Series of which the same dates are shown have the same list of dates. -/
theorem dates_congr {series' : List (List Observation)}
    (h : ∀ day, Shown series day ↔ Shown series' day) : dates series = dates series' := by
  apply eq_of_ascending_by id (dates_ascending series) (dates_ascending series')
  intro day
  rw [mem_dates, mem_dates, h]

theorem isSome_carried?_of_mem_dates {s : List Observation} (hs : s ∈ series)
    (hday : day ∈ dates series) : (carried? day s).isSome :=
  (shown_iff.1 (mem_dates.1 hday)).2 s hs

/-- The columns of rows are the series that the rows were made of, on the days of the rows. -/
theorem columns_eq {rows : List (Date × List Value)}
    (h : ∀ row ∈ rows, series.map (carried? row.1) = row.2.map some) :
    columns series.length rows = series.map (onDays (rows.map (·.1))) := by
  induction series generalizing rows with
  | nil => rfl
  | cons s series ih =>
    have hsplit (row : Date × List Value) (hrow : row ∈ rows) :
        carried? row.1 s = row.2.head? ∧ series.map (carried? row.1) = row.2.tail.map some := by
      have hrow := h row hrow
      cases hvalues : row.2 with
      | nil => simp [hvalues] at hrow
      | cons v values =>
        rw [hvalues, List.map_cons, List.map_cons] at hrow
        exact List.cons.inj hrow
    rw [List.length_cons, columns, List.map_cons, ih, List.map_map]
    · congr 1
      rw [onDays, List.filterMap_map]
      apply List.filterMap_congr
      intro row hrow
      rw [Function.comp_apply, (hsplit row hrow).1]
    · rw [List.forall_mem_map]
      exact fun row hrow => (hsplit row hrow).2

theorem fillForward_eq_map (series : List (List Observation)) :
    fillForward series = series.map (onDays (dates series)) := by
  apply columns_eq
  rintro ⟨day, values⟩ hrow
  exact (mem_rows.1 hrow).2

/-- Every date that is shown is a date of every aligned series, and no other date is. -/
theorem shown_fillForward : Shown (fillForward series) day ↔ Shown series day := by
  rw [fillForward_eq_map, Shown, List.forall_mem_map]
  have hmem (s : List Observation) (hs : s ∈ series) :
      (∃ o ∈ onDays (dates series) s, o.date = day) ↔ Shown series day := by
    rw [exists_mem_onDays_iff fun day hday => isSome_carried?_of_mem_dates hs hday, mem_dates]
  constructor
  · rintro ⟨⟨t, ht, hday⟩, -⟩
    obtain ⟨s, hs, rfl⟩ := List.mem_map.1 ht
    exact (hmem s hs).1 hday
  · intro hshown
    obtain ⟨s, hs, -⟩ := hshown.1
    refine ⟨⟨_, List.mem_map_of_mem hs, (hmem s hs).2 hshown⟩, fun s hs => ?_⟩
    obtain ⟨o, ho, hdate⟩ := (hmem s hs).2 hshown
    exact ⟨o, ho, Std.le_of_eq hdate⟩

theorem fillForward_fillForward (series : List (List Observation)) :
    fillForward (fillForward series) = fillForward series := by
  rw [fillForward_eq_map (fillForward series), dates_congr fun _ => shown_fillForward,
    fillForward_eq_map, List.map_map]
  apply List.map_congr_left
  intro s hs
  exact onDays_onDays (fun day hday => isSome_carried?_of_mem_dates hs hday)
    (dates_ascending series)

theorem fillForward_permuted (series : List (List Observation))
    (σ : Equiv.Perm (Fin series.length)) (i : Fin series.length) :
    (fillForward (List.ofFn fun j => series[σ j]))[i.val]? = (fillForward series)[(σ i).val]? := by
  have hperm : (List.ofFn fun j => series[σ j]).Perm series := by
    have hperm := Equiv.Perm.ofFn_comp_perm σ series.get
    rwa [List.ofFn_get] at hperm
  rw [fillForward_eq_map, fillForward_eq_map, dates_congr (shown_perm hperm), List.getElem?_map,
    List.getElem?_map]
  simp

end Aligned

/-- An alignment has a series for each one there is, all of them on the dates that are shown, with
the values that the series have on them. The order of the series is kept, whatever it is, and series
that are aligned already stay as they are. -/
theorem fillForward_aligned (series : List (List Observation)) :
    (∃ days : List Date, days.Pairwise (· < ·) ∧ (∀ day, day ∈ days ↔ Shown series day) ∧
        List.Forall₂ (fun s t => t.map (·.date) = days ∧ ∀ o ∈ t, HasOn s o.date o.value)
          series (fillForward series)) ∧
      (∀ (σ : Equiv.Perm (Fin series.length)) (i : Fin series.length),
        (fillForward (List.ofFn fun j => series[σ j]))[i.val]? =
          (fillForward series)[(σ i).val]?) ∧
      fillForward (fillForward series) = fillForward series := by
  refine ⟨⟨dates series, dates_ascending series, fun day => mem_dates, ?_⟩,
    fillForward_permuted series, fillForward_fillForward series⟩
  rw [fillForward_eq_map, List.forall₂_map_right_iff, List.forall₂_same]
  intro s hs
  refine ⟨dates_onDays fun day hday => isSome_carried?_of_mem_dates hs hday, fun o ho => ?_⟩
  exact carried?_eq_some_iff.1 (mem_onDays.1 ho).2

/-- A value of a date that is left out counts on the next one, and of two values for one date the
last listed. -/
example :
    let day (n : Nat) (h : Calendar.IsDay 2024 1 n) : Date := ⟨2024, 1, n, h⟩
    fillForward
        [[⟨day 3 (by decide), 7⟩, ⟨day 1 (by decide), 1⟩, ⟨day 3 (by decide), 3⟩],
          [⟨day 2 (by decide), 20⟩, ⟨day 4 (by decide), 40⟩]] =
      [[⟨day 2 (by decide), 1⟩, ⟨day 3 (by decide), 3⟩, ⟨day 4 (by decide), 3⟩],
        [⟨day 2 (by decide), 20⟩, ⟨day 3 (by decide), 20⟩, ⟨day 4 (by decide), 40⟩]] := by
  decide

end TimeSeries.Align
