import Mathlib.Data.List.Pairwise
import TimeSeries.Composition.Align
import TimeSeries.Proofs.Greatest
import TimeSeries.Proofs.MapEntries

/-!
A series as a step function of the day: on each day it has the value it lists for the day or, if it
lists none, the last value before. Before its first day it has none. The series need not be listed
by date; of several values for one day the last listed counts.
-/
namespace TimeSeries.Align

/-- A series listed by date is determined by its observations. -/
theorem eq_of_ascending {series series' : List Observation}
    (h : series.Pairwise (·.date < ·.date)) (h' : series'.Pairwise (·.date < ·.date))
    (hmem : ∀ o, o ∈ series ↔ o ∈ series') : series = series' :=
  eq_of_ascending_by Observation.date h h' hmem

/-- The first date is not after the second. -/
def upTo (a b : Observation) : Bool := decide (a.date ≤ b.date)

theorem upTo_trans (a b c : Observation) (h₁ : upTo a b = true) (h₂ : upTo b c = true) :
    upTo a c = true := by
  simp only [upTo, decide_eq_true_eq] at *
  exact Std.le_trans h₁ h₂

theorem upTo_total (a b : Observation) : (upTo a b || upTo b a) = true := by
  simpa [upTo] using Std.le_total (a := a.date) (b := b.date)

/-- The last value of a series on the days of a class. -/
def lastValue? (days : Date → Bool) (series : List Observation) : Option Value :=
  (Greatest.last? upTo (series.filter fun o => days o.date)).map (·.value)

/-- The value of a series on a day: the one of the latest date up to it. -/
def carried? (day : Date) (series : List Observation) : Option Value :=
  lastValue? (fun d => decide (d ≤ day)) series

theorem lastValue?_congr {p q : Date → Bool} {series : List Observation}
    (h : ∀ o ∈ series, p o.date = q o.date) : lastValue? p series = lastValue? q series := by
  rw [lastValue?, lastValue?, List.filter_congr h]

/-- What is listed on a class of later days hides what is listed earlier. -/
theorem lastValue?_or {p q : Date → Bool} {series : List Observation}
    (h : ∀ a ∈ series, ∀ b ∈ series, p a.date = true → q b.date = true → a.date < b.date) :
    lastValue? (fun d => p d || q d) series =
      (lastValue? q series).or (lastValue? p series) := by
  rw [lastValue?, lastValue?, lastValue?, Greatest.last?_filter_or]
  · exact Option.map_or
  · intro a ha b hb hpa hqb
    have hab := h a ha b hb hpa hqb
    simp only [upTo, decide_eq_true_eq, decide_eq_false_iff_not]
    exact ⟨Std.le_of_lt hab, Std.not_le.2 hab⟩

@[simp] theorem lastValue?_eq_none_iff {days : Date → Bool} {series : List Observation} :
    lastValue? days series = none ↔ ∀ o ∈ series, days o.date = false := by
  simp [lastValue?]

/-- A series has a value on a day exactly if it lists one for the day or before. -/
theorem carried?_isSome_iff {day : Date} {series : List Observation} :
    (carried? day series).isSome ↔ ∃ o ∈ series, o.date ≤ day := by
  rw [← Option.ne_none_iff_isSome, ne_eq, carried?, lastValue?_eq_none_iff]
  simp

theorem mem_of_lastValue? {days : Date → Bool} {series : List Observation} {v : Value}
    (h : lastValue? days series = some v) : ∃ o ∈ series, days o.date = true ∧ o.value = v := by
  obtain ⟨o, ho, rfl⟩ := Option.map_eq_some_iff.1 h
  obtain ⟨hmem, hdays⟩ := List.mem_filter.1 (Greatest.mem_of_last? ho)
  exact ⟨o, hmem, hdays, rfl⟩

/-- The value of a day is that of an observation up to the day with none later, and of several for
the same date it is the last one listed. -/
theorem carried?_eq_some_iff {day : Date} {series : List Observation} {v : Value} :
    carried? day series = some v ↔ ∃ before o after, series = before ++ o :: after ∧
      o.date ≤ day ∧ o.value = v ∧ (∀ p ∈ before, p.date ≤ day → p.date ≤ o.date) ∧
      ∀ p ∈ after, p.date ≤ day → p.date < o.date := by
  rw [carried?, lastValue?, Option.map_eq_some_iff]
  constructor
  · rintro ⟨o, ho, rfl⟩
    obtain ⟨before, after, hsplit, hb, ha⟩ :=
      Greatest.exists_split_of_last? upTo_trans upTo_total ho
    obtain ⟨front, back, rfl, rfl, hback⟩ := List.filter_eq_append_iff.1 hsplit
    obtain ⟨skipped, rest, rfl, hskipped, ho, rfl⟩ := List.filter_eq_cons_iff.1 hback
    refine ⟨front ++ skipped, o, rest, by simp, by simpa using ho, rfl, ?_, ?_⟩
    · intro p hp hday
      rcases List.mem_append.1 hp with hp | hp
      · simpa [upTo] using hb p (by simp [hp, hday])
      · exact absurd (by simpa using hday) (hskipped p hp)
    · intro p hp hday
      simpa [upTo, Std.not_le] using ha p (by simp [hp, hday])
  · rintro ⟨before, o, after, rfl, ho, rfl, hb, ha⟩
    refine ⟨o, ?_, rfl⟩
    rw [List.filter_append, List.filter_cons_of_pos (by simpa using ho)]
    refine Greatest.last?_append_cons ?_ ?_
    · intro p hp
      obtain ⟨hp, hday⟩ := List.mem_filter.1 hp
      simpa [upTo] using hb p hp (by simpa using hday)
    · intro p hp
      obtain ⟨hp, hday⟩ := List.mem_filter.1 hp
      simpa [upTo, Std.not_le] using ha p hp (by simpa using hday)

/-- A series listed by date has one observation for a date at most. -/
theorem eq_of_date_eq {series : List Observation} (h : series.Pairwise (·.date < ·.date))
    {a b : Observation} (ha : a ∈ series) (hb : b ∈ series) (hdate : a.date = b.date) : a = b := by
  by_contra hne
  have hdates : series.Pairwise fun a b => a.date ≠ b.date := by
    apply h.imp
    intro a b hlt heq
    rw [heq] at hlt
    exact Std.lt_irrefl hlt
  have : Std.Symm fun a b : Observation => a.date ≠ b.date := ⟨fun _ _ => Ne.symm⟩
  exact hdates.forall ha hb hne hdate

theorem carried?_eq_some_iff_of_ascending {day : Date} {series : List Observation} {v : Value}
    (h : series.Pairwise (·.date < ·.date)) : carried? day series = some v ↔
      ∃ o ∈ series, o.date ≤ day ∧ o.value = v ∧ ∀ p ∈ series, p.date ≤ day → p.date ≤ o.date := by
  have hdistinct : ∀ a ∈ series.filter (fun o => decide (o.date ≤ day)),
      ∀ b ∈ series.filter (fun o => decide (o.date ≤ day)),
        upTo a b = true → upTo b a = true → a = b := by
    intro a ha b hb hab hba
    simp only [upTo, decide_eq_true_eq] at hab hba
    exact eq_of_date_eq h (List.mem_filter.1 ha).1 (List.mem_filter.1 hb).1 (Std.le_antisymm hab hba)
  rw [carried?, lastValue?, Option.map_eq_some_iff]
  simp only [Greatest.last?_eq_some_iff_of_distinct upTo_trans upTo_total hdistinct,
    List.mem_filter, upTo, decide_eq_true_eq]
  grind

/-- In a series listed by date the value of a day is the last one listed up to it. -/
theorem carried?_eq_getLast? {series : List Observation} (h : series.Pairwise (·.date < ·.date))
    (day : Date) : carried? day series =
      ((series.filter fun o => decide (o.date ≤ day)).getLast?).map (·.value) := by
  have hle : series.Pairwise fun a b => upTo a b = true := by
    apply h.imp
    intro a b hab
    simpa [upTo] using Std.le_of_lt hab
  rw [carried?, lastValue?, Greatest.last?_eq_getLast? (hle.filter _)]

/-- Values that change by a relation, on the same dates, are carried as the relation says. -/
theorem carried?_forall₂ {R : Value → Value → Prop} {series series' : List Observation}
    (h : List.Forall₂ (fun o p => p.date = o.date ∧ R o.value p.value) series series')
    (day : Date) : Option.Rel R (carried? day series) (carried? day series') := by
  have hfilter : List.Forall₂ (fun o p => p.date = o.date ∧ R o.value p.value)
      (series.filter fun o => decide (o.date ≤ day))
      (series'.filter fun o => decide (o.date ≤ day)) := by
    apply List.rel_filter _ h
    intro o p hop
    simp [hop.1]
  have hlast : Option.Rel (fun o p => p.date = o.date ∧ R o.value p.value)
      (Greatest.last? upTo (series.filter fun o => decide (o.date ≤ day)))
      (Greatest.last? upTo (series'.filter fun o => decide (o.date ≤ day))) := by
    apply Greatest.last?_forall₂ _ hfilter
    intro o o' p p' hop hop'
    rw [upTo, upTo, hop.1, hop'.1]
  rw [carried?, carried?, lastValue?, lastValue?]
  generalize Greatest.last? upTo (series.filter fun o => decide (o.date ≤ day)) = last at hlast
  generalize Greatest.last? upTo (series'.filter fun o => decide (o.date ≤ day)) = last' at hlast
  cases hlast with
  | none => exact .none
  | some hop => exact .some hop.2

/-- The answer for a day is the value that the rows of a range have on the day, and there is no data
if they have none. -/
def AgreesOn (rows : List Observation) (day : Date)
    (answer : Except Error (List Observation)) : Prop :=
  match carried? day rows with
  | some v => answer = .ok [⟨day, v⟩]
  | none => ∃ e, answer = .error e ∧ e.innermost = .noDataFound

theorem AgreesOn.mapError {rows : List Observation} {day : Date}
    {answer : Except Error (List Observation)} (h : AgreesOn rows day answer) (id : SeriesId) :
    AgreesOn rows day (answer.mapError (.constituent id)) := by
  rw [AgreesOn] at *
  cases hc : carried? day rows with
  | some v =>
    rw [hc] at h
    rw [h]
    rfl
  | none =>
    rw [hc] at h
    obtain ⟨e, rfl, he⟩ := h
    exact ⟨.constituent id e, rfl, he⟩

end TimeSeries.Align
