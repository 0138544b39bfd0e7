import TimeSeries.Proofs.MapEntries
import TimeSeries.Proofs.StepFunction

/-!
Alignment of series: the rows of a walk along the union of the dates are the values of the step
functions on those dates on which every one of them has a value.
-/
namespace TimeSeries.Align

/-- A date is shown if some series lists it and every series has started by then. -/
def Shown (series : List (List Observation)) (day : Date) : Prop :=
  (∃ s ∈ series, ∃ o ∈ s, o.date = day) ∧ ∀ s ∈ series, ∃ o ∈ s, o.date ≤ day

/-- Which dates are shown does not depend on the order of the series. -/
theorem shown_perm {series series' : List (List Observation)} (h : series.Perm series')
    (day : Date) : Shown series day ↔ Shown series' day := by
  simp only [Shown, h.mem_iff]

theorem find?_byDate (series : List Observation) (day : Date) :
    (byDate series).find? day = lastValue? (fun d => d == day) series := by
  induction series using List.reverseRecOn with
  | nil => rfl
  | append_singleton series o ih =>
    have hfilter : lastValue? (fun d => d == day) (series ++ [o]) =
        if o.date = day then some o.value else lastValue? (fun d => d == day) series := by
      rw [lastValue?, List.filter_append, List.filter_singleton]
      split
      · next h =>
        cases hb : Greatest.last? upTo (series.filter fun p => p.date == day) with
        | none => simp [h, hb, Greatest.later]
        | some b =>
          have hday : b.date = day := by
            simpa using (List.mem_filter.1 (Greatest.mem_of_last? hb)).2
          simp [h, hb, Greatest.later, upTo, hday]
      · next h =>
        have h : (o.date == day) = false := by simpa using h
        simp [h, lastValue?]
    rw [byDate, List.map_append, List.map_singleton, SortedMap.ofList_concat,
      SortedMap.find?_insert, hfilter, ← ih, byDate]
    simp [eq_comm]

theorem mem_axis {series : List (List Observation)} {day : Date} :
    day ∈ axis series ↔ ∃ s ∈ series, ∃ o ∈ s, o.date = day := by
  simp only [axis, SortedMap.mem_keys_ofList, List.mem_map, List.mem_flatten]
  constructor
  · rintro ⟨e, ⟨o, ⟨s, hs, ho⟩, rfl⟩, rfl⟩
    exact ⟨s, hs, o, ho, rfl⟩
  · rintro ⟨s, hs, o, ho, rfl⟩
    exact ⟨_, ⟨o, ⟨s, hs, ho⟩, rfl⟩, rfl⟩

theorem axis_ascending (series : List (List Observation)) : (axis series).Pairwise (· < ·) :=
  SortedMap.keys_ascending _

theorem complete?_eq_some_iff {known : List (Option Value)} {values : List Value} :
    complete? known = some values ↔ known = values.map some := by
  induction known generalizing values with
  | nil => cases values <;> simp [complete?]
  | cons v known ih =>
    cases v with
    | none => cases values <;> simp [complete?]
    | some v =>
      cases values with
      | nil => simp [complete?]
      | cons w values => simp [complete?, ih, and_comm]

theorem advance_map (day : Date) (series : List (List Observation)) (p : Date → Bool) :
    advance day (series.map byDate) (series.map (lastValue? p)) =
      series.map fun s => ((byDate s).find? day).or (lastValue? p s) := by
  induction series with
  | nil => rfl
  | cons s series ih => rw [List.map_cons, List.map_cons, List.map_cons, ← ih]; rfl

/-- The dates still ahead of the walk: every date of the series is ahead, or before all that are. -/
def IsAhead (dates : List Date) (series : List (List Observation)) : Prop :=
  dates.Pairwise (· < ·) ∧
    ∀ s ∈ series, ∀ o ∈ s, o.date ∈ dates ∨ ∀ d ∈ dates, o.date < d

theorem isAhead_axis (series : List (List Observation)) : IsAhead (axis series) series :=
  ⟨axis_ascending series, fun s hs o ho => .inl (mem_axis.2 ⟨s, hs, o, ho, rfl⟩)⟩

theorem IsAhead.tail {day : Date} {dates : List Date} {series : List (List Observation)}
    (h : IsAhead (day :: dates) series) : IsAhead dates series := by
  obtain ⟨hday, hdates⟩ := List.pairwise_cons.1 h.1
  refine ⟨hdates, fun s hs o ho => ?_⟩
  rcases h.2 s hs o ho with ho | ho
  · rcases List.mem_cons.1 ho with ho | ho
    · exact .inr (ho ▸ hday)
    · exact .inl ho
  · exact .inr fun d hd => ho d (List.mem_cons_of_mem _ hd)

/-- One step of the walk brings the last known values up to the date it steps to. -/
theorem advance_eq_carried {day : Date} {dates : List Date} {series : List (List Observation)}
    (h : IsAhead (day :: dates) series) :
    advance day (series.map byDate) (series.map (lastValue? fun d => !(day :: dates).contains d)) =
      series.map (carried? day) := by
  have later {d : Date} (hd : d ∈ dates) : day < d := (List.pairwise_cons.1 h.1).1 d hd
  rw [advance_map]
  refine List.map_congr_left fun s hs => ?_
  rw [find?_byDate, ← lastValue?_or, carried?]
  · refine lastValue?_congr fun o ho => ?_
    rcases h.2 s hs o ho with hd | hd
    · rcases List.mem_cons.1 hd with hd | hd
      · simp [hd, Std.le_refl]
      · have hne : o.date ≠ day := fun he => Std.lt_irrefl (he ▸ later hd)
        simp [hd, hne, Std.not_le.2 (later hd)]
    · have hday := hd day List.mem_cons_self
      have hnot : o.date ∉ day :: dates := fun hmem => Std.lt_irrefl (hd _ hmem)
      simp [hnot, Std.le_of_lt hday]
  · intro a ha b _ hnot hday
    rw [beq_iff_eq] at hday
    rcases h.2 s hs a ha with hd | hd
    · simp [hd] at hnot
    · exact hday ▸ hd day List.mem_cons_self

/-- The dates that are no longer ahead are those up to the one stepped to. -/
theorem known_eq_carried {day : Date} {dates : List Date} {series : List (List Observation)}
    (h : IsAhead (day :: dates) series) :
    series.map (carried? day) = series.map (lastValue? fun d => !dates.contains d) := by
  have later {d : Date} (hd : d ∈ dates) : day < d := (List.pairwise_cons.1 h.1).1 d hd
  refine List.map_congr_left fun s hs => ?_
  refine lastValue?_congr fun o ho => ?_
  by_cases hmem : o.date ∈ dates
  · simp [hmem, Std.not_le.2 (later hmem)]
  · have hle : o.date ≤ day := by
      rcases h.2 s hs o ho with hd | hd
      · rcases List.mem_cons.1 hd with hd | hd
        · exact hd ▸ Std.le_refl _
        · exact absurd hd hmem
      · exact Std.le_of_lt (hd day List.mem_cons_self)
    simp [hmem, hle]

/-- The walk shows the step functions on every date on which all of them have a value. -/
theorem sweep_eq {dates : List Date} {series : List (List Observation)}
    (h : IsAhead dates series) :
    sweep (series.map byDate) (series.map (lastValue? fun d => !dates.contains d)) dates =
      dates.filterMap fun day => (complete? (series.map (carried? day))).map (day, ·) := by
  induction dates with
  | nil => rfl
  | cons day dates ih =>
    rw [sweep, advance_eq_carried h, List.filterMap_cons]
    cases hc : complete? (series.map (carried? day)) with
    | none => rw [known_eq_carried h, ih h.tail]; rfl
    | some values => rw [known_eq_carried h, ih h.tail]; rfl

/-- Alignment in terms of step functions alone. -/
theorem rows_eq (series : List (List Observation)) :
    rows series = (axis series).filterMap fun day =>
      (complete? (series.map (carried? day))).map (day, ·) := by
  rw [rows, ← sweep_eq (isAhead_axis series)]
  congr 1
  refine List.map_congr_left fun s hs => ?_
  rw [eq_comm, lastValue?_eq_none_iff]
  intro o ho
  simp [mem_axis.2 ⟨s, hs, o, ho, rfl⟩]

theorem mem_rows {series : List (List Observation)} {day : Date} {values : List Value} :
    (day, values) ∈ rows series ↔
      day ∈ axis series ∧ series.map (carried? day) = values.map some := by
  simp [rows_eq, complete?_eq_some_iff]

/-- One row for each date, in ascending order. -/
theorem rows_ascending (series : List (List Observation)) :
    (rows series).Pairwise (·.1 < ·.1) := by
  rw [rows_eq]
  refine List.Pairwise.filterMap _ ?_ (axis_ascending series)
  intro a b hab r hr r' hr'
  simp only [Option.map_eq_some_iff] at hr hr'
  obtain ⟨_, _, rfl⟩ := hr
  obtain ⟨_, _, rfl⟩ := hr'
  exact hab

theorem shown_iff {series : List (List Observation)} {day : Date} :
    Shown series day ↔ day ∈ axis series ∧ ∀ s ∈ series, (carried? day s).isSome := by
  simp only [Shown, mem_axis, carried?_isSome_iff]

theorem exists_values_iff {known : List (Option Value)} :
    (∃ values : List Value, known = values.map some) ↔ ∀ v ∈ known, v.isSome := by
  induction known with
  | nil => simp
  | cons v known ih =>
    simp only [List.mem_cons, forall_eq_or_imp, ← ih]
    constructor
    · rintro ⟨_ | ⟨w, values⟩, h⟩
      · simp at h
      · obtain ⟨rfl, rfl⟩ := List.cons.inj h
        exact ⟨rfl, values, rfl⟩
    · rintro ⟨hv, values, rfl⟩
      obtain ⟨w, rfl⟩ := Option.isSome_iff_exists.1 hv
      exact ⟨w :: values, rfl⟩

/-- The rows are those of the dates that are shown. -/
theorem exists_row_iff {series : List (List Observation)} {day : Date} :
    (∃ values, (day, values) ∈ rows series) ↔ Shown series day := by
  simp only [mem_rows, exists_and_left, exists_values_iff, shown_iff, List.forall_mem_map]

end TimeSeries.Align
