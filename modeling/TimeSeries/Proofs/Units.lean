import TimeSeries.Proofs.LaterRows

/-!
The units of a table. A factor on all its values changes neither which of its rows are looked up nor
which one is the base, and it cancels out of every index, whatever its sign: numerator and
denominator are scaled alike before the one division.
-/
namespace TimeSeries

open Recorded (chronology)

/-- The value times a factor, if that fits. -/
def Value.times (factor : Int) (v : Value) : Value := Int64.ofInt (factor * v.toInt)

def Observation.times (factor : Int) (o : Observation) : Observation :=
  ⟨o.date, o.value.times factor⟩

/-- The row in other units. -/
def Recorded.times (factor : Int) (row : Recorded) : Recorded :=
  { row with toObservation := row.toObservation.times factor }

/-! ## Values -/

section Values
variable {factor : Int} {v : Value}

theorem Value.toInt_times (h : Fits (factor * v.toInt)) :
    (v.times factor).toInt = factor * v.toInt :=
  Int64.toInt_ofInt_of_le h.1 h.2

theorem Value.times_eq_zero_iff (hfactor : factor ≠ 0) (h : Fits (factor * v.toInt)) :
    v.times factor = 0 ↔ v = 0 := by
  have hzero : (0 : Value).toInt = 0 := rfl
  rw [← Int64.toInt_inj, ← Int64.toInt_inj, toInt_times h, hzero, Int.mul_eq_zero]
  simp [hfactor]

/-- A factor of both sides cancels out of a truncated quotient. -/
theorem tdiv_times (hfactor : factor ≠ 0) (a b : Int) :
    (factor * a).tdiv (factor * b) = a.tdiv b := by
  rcases Int.lt_or_gt_of_ne hfactor with hneg | hpos
  · have hcancel := Int.mul_tdiv_mul_of_pos a b (Int.neg_pos_of_neg hneg)
    rwa [Int.neg_mul, Int.neg_mul, Int.neg_tdiv, Int.tdiv_neg, Int.neg_neg] at hcancel
  · exact Int.mul_tdiv_mul_of_pos a b hpos

theorem fractionTowardZero_times {base : Value} (hfactor : factor ≠ 0)
    (hvalue : Fits (factor * v.toInt)) (hbase : Fits (factor * base.toInt)) (scale : Value) :
    fractionTowardZero (v.times factor) scale (base.times factor) =
      fractionTowardZero v scale base := by
  simp only [fractionTowardZero, Value.times_eq_zero_iff hfactor hbase, Value.toInt_times hvalue,
    Value.toInt_times hbase, Int.mul_assoc, tdiv_times hfactor]

theorem Primitive.relativeTo_times {base : Value} {o : Observation} (hfactor : factor ≠ 0)
    (hvalue : Fits (factor * o.value.toInt)) (hbase : Fits (factor * base.toInt)) :
    relativeTo (base.times factor) (o.times factor) = relativeTo base o := by
  rw [relativeTo, relativeTo]
  show (fractionTowardZero (o.value.times factor) indexScale (base.times factor) >>= _) = _
  rw [fractionTowardZero_times hfactor hvalue hbase]
  rfl

end Values

/-! ## Rows -/

namespace Primitive

section Rows
variable {rows : List Recorded} {factor : Int}

/-- Only a lookup of the base looks at the values. -/
theorem filter_times {lookup : Lookup} (h : lookup = .base → ∀ row ∈ rows,
      (row.value.times factor = 0 ↔ row.value = 0)) :
    (rows.map (Recorded.times factor)).filter (chronology.covers lookup) =
      (rows.filter (chronology.covers lookup)).map (Recorded.times factor) := by
  rw [List.filter_map]
  congr 1
  apply List.filter_congr
  intro row hrow
  cases lookup with
  | base =>
    show (row.value.times factor != 0) = (row.value != 0)
    rw [Bool.eq_iff_iff, bne_iff_ne, bne_iff_ne, ne_eq, ne_eq, h rfl row hrow]
  | _ => rfl

/-- A lookup finds the same row, in other units. -/
theorem pick?_times {lookup : Lookup} (h : lookup = .base → ∀ row ∈ rows,
      (row.value.times factor = 0 ↔ row.value = 0)) :
    chronology.pick? (rows.map (Recorded.times factor)) lookup =
      (chronology.pick? rows lookup).map (Recorded.times factor) := by
  rw [Chronology.pick?, Chronology.pick?, filter_times h]
  apply Greatest.last?_map
  intro a b
  cases lookup <;> rfl

theorem pick?_times_of_ne_base {lookup : Lookup} (h : lookup ≠ .base) :
    chronology.pick? (rows.map (Recorded.times factor)) lookup =
      (chronology.pick? rows lookup).map (Recorded.times factor) :=
  pick?_times fun heq => absurd heq h

theorem latestPerDate_times : latestPerDate (rows.map (Recorded.times factor)) =
    (latestPerDate rows).map (Observation.times factor) := by
  apply Align.eq_of_ascending (latestPerDate_ascending _)
  · exact List.pairwise_map.2 (latestPerDate_ascending rows)
  · intro o
    have hpick : chronology.pick? (rows.map (Recorded.times factor)) (.exact o.date) =
        (chronology.pick? rows (.exact o.date)).map (Recorded.times factor) :=
      pick?_times_of_ne_base (by simp)
    rw [mem_latestPerDate, hpick, List.mem_map]
    simp only [mem_latestPerDate, Option.map_eq_some_iff]
    constructor
    · rintro ⟨_, ⟨row, hrow, rfl⟩, rfl⟩
      exact ⟨row.toObservation, ⟨row, hrow, rfl⟩, rfl⟩
    · rintro ⟨_, ⟨row, hrow, rfl⟩, rfl⟩
      exact ⟨row.times factor, ⟨row, hrow, rfl⟩, rfl⟩

theorem valueOn?_times (day : Date) : valueOn? (rows.map (Recorded.times factor)) day =
    (valueOn? rows day).map (Value.times factor) := by
  rw [valueOn?, valueOn?, pick?_times_of_ne_base (by simp), Option.map_map, Option.map_map]
  rfl

theorem fromFirst_times (first : Date) (found : List Observation) :
    fromFirst (rows.map (Recorded.times factor)) first (found.map (Observation.times factor)) =
      (fromFirst rows first found).map (Observation.times factor) := by
  have hhead : (found.map (Observation.times factor)).head?.map (·.date) =
      found.head?.map (·.date) := by cases found <;> rfl
  rw [fromFirst, fromFirst, hhead, valueOn?_times]
  split
  · rfl
  · rw [List.map_append]
    cases valueOn? rows first <;> rfl

theorem history_times (first last : Date) :
    history (rows.map (Recorded.times factor)) first last =
      (history rows first last).map (Observation.times factor) := by
  rw [history, history, filter_times (by simp), latestPerDate_times, fromFirst_times]

/-- The observations for a query are the same ones in other units. -/
theorem observations_times (hfactor : factor ≠ 0)
    (hfits : ∀ row ∈ rows, Fits (factor * row.value.toInt)) (resolution : Resolution) :
    observations (rows.map (Recorded.times factor)) resolution =
      (observations rows resolution).map (Observation.times factor) := by
  cases resolution with
  | base =>
    rw [observations, observations,
      pick?_times fun _ row hrow => Value.times_eq_zero_iff hfactor (hfits row hrow)]
    cases chronology.pick? rows .base <;> rfl
  | latest =>
    rw [observations, observations, pick?_times_of_ne_base (by simp)]
    cases chronology.pick? rows .latest <;> rfl
  | exact day =>
    rw [observations, observations, valueOn?_times]
    cases valueOn? rows day <;> rfl
  | range first last => exact history_times first last

/-- What is observed has been recorded. -/
theorem exists_row_of_mem_observations {resolution : Resolution} {o : Observation}
    (ho : o ∈ observations rows resolution) : ∃ row ∈ rows, row.value = o.value := by
  have hcarried {day : Date} {v : Value} (hv : valueOn? rows day = some v) :
      ∃ row ∈ rows, row.value = v := by
    obtain ⟨row, hrow, rfl⟩ := Option.map_eq_some_iff.1 hv
    exact ⟨row, (Chronology.mem_of_pick? hrow).1, rfl⟩
  have hsingle {lookup : Lookup}
      (ho : o ∈ (chronology.pick? rows lookup).toList.map (·.toObservation)) :
      ∃ row ∈ rows, row.value = o.value := by
    obtain ⟨row, hrow, rfl⟩ := List.mem_map.1 ho
    exact ⟨row, (Chronology.mem_of_pick? (Option.mem_toList.1 hrow)).1, rfl⟩
  cases resolution with
  | base => exact hsingle ho
  | latest => exact hsingle ho
  | exact day =>
    obtain ⟨v, hv, rfl⟩ := List.mem_map.1 ho
    exact hcarried (Option.mem_toList.1 hv)
  | range first last =>
    rcases mem_fromFirst.1 ho with ho | ⟨-, -, hv⟩
    · obtain ⟨row, hrow, rfl, -⟩ := date_of_mem_inRange ho
      exact ⟨row, hrow, rfl⟩
    · exact hcarried hv

end Rows

/-! ## Indices -/

section Index
variable {source source' : Source} {binding : Binding} {rows : List Recorded} {factor : Int}
  (h : Answers source binding rows)
  (h' : Answers source' binding (rows.map (Recorded.times factor)))
include h h'

theorem outcome_value_times (hfactor : factor ≠ 0)
    (hfits : ∀ row ∈ rows, Fits (factor * row.value.toInt)) (query : Query) :
    (value source' binding query).outcome =
      (value source binding query).outcome.map (List.map (Observation.times factor)) := by
  rw [outcome_value h, outcome_value h', observations_times hfactor hfits]
  cases observations rows query.resolution <;> rfl

/-- The index of a table is the same in all units. -/
theorem outcome_index_times (hfactor : factor ≠ 0)
    (hfits : ∀ row ∈ rows, Fits (factor * row.value.toInt)) (query : Query) :
    (index source' binding query).outcome = (index source binding query).outcome := by
  have hpick : chronology.pick? (rows.map (Recorded.times factor)) .base =
      (chronology.pick? rows .base).map (Recorded.times factor) :=
    pick?_times fun _ row hrow => Value.times_eq_zero_iff hfactor (hfits row hrow)
  cases hbase : chronology.pick? rows .base with
  | none =>
    rw [hbase, Option.map_none] at hpick
    have hearliest : (value source binding .earliest).outcome = .error .noDataFound := by
      rw [outcome_earliest h, hbase]
      rfl
    have hearliest' : (value source' binding .earliest).outcome = .error .noDataFound := by
      rw [outcome_earliest h', hpick]
      rfl
    rw [outcome_index, outcome_index, hearliest, hearliest', error_bind, error_bind]
  | some row =>
    rw [hbase, Option.map_some] at hpick
    have hrow := (Chronology.mem_of_pick? hbase).1
    rw [outcome_index_of_base h hbase, outcome_index_of_base h' hpick,
      outcome_value_times h h' hfactor hfits]
    cases hcurrent : (value source binding query).outcome with
    | error e => rw [Except.map, error_bind, error_bind]
    | ok current =>
      rw [outcome_value h, nonempty_eq_ok_iff] at hcurrent
      obtain ⟨rfl, -⟩ := hcurrent
      have hmap : ((observations rows query.resolution).map (Observation.times factor)).mapM
            (relativeTo (row.times factor).value) =
          (observations rows query.resolution).mapM (relativeTo row.value) := by
        rw [List.mapM_map]
        apply mapM_congr
        intro o ho
        obtain ⟨r, hr, hvalue⟩ := exists_row_of_mem_observations ho
        exact relativeTo_times hfactor (hvalue ▸ hfits r hr) (hfits row hrow)
      rw [Except.map, ok_bind, ok_bind, List.length_map, hmap]

end Index
end Primitive

namespace Catalogue

/-- Indices are independent of units: with a factor for each table that is drawn on, which is not
zero and makes no value too large, every index is the same, as an answer or as a failure. -/
theorem evaluate_index_times {c : Catalogue} {source source' : Source}
    {tables : Binding → List Recorded} {factor : Binding → Int} {id : SeriesId}
    (hsource : ∀ binding, c.Draws id binding → Answers source binding (tables binding))
    (hsource' : ∀ binding, c.Draws id binding →
      Answers source' binding ((tables binding).map (Recorded.times (factor binding))))
    (hfactor : ∀ binding, c.Draws id binding → factor binding ≠ 0)
    (hfits : ∀ binding, c.Draws id binding →
      ∀ row ∈ tables binding, Fits (factor binding * row.value.toInt)) (query : Query) :
    (c.evaluate source' id .index query).outcome =
      (c.evaluate source id .index query).outcome := by
  apply outcome_evaluateBelow_congr_of_reaches (fun _ _ => rfl)
  intro x binding hx hd
  have hb : c.Draws id binding := ⟨x, hx, hd⟩
  exact Primitive.outcome_index_times (hsource binding hb) (hsource' binding hb)
    (hfactor binding hb) (hfits binding hb) query

/-- Food is booked in thirds and as an expense, rent in thousandths. -/
def householdFactor (binding : Binding) : Int := if binding.table = "food" then -3 else 1000

theorem evaluate_index_times_household :
    let c := household.catalogue
    let tables (binding : Binding) :=
      (householdTables binding).map (Recorded.times (householdFactor binding))
    let query : Query := ⟨.on ⟨2024, 1, 2, by decide⟩, some ⟨2024, 1, 6, by decide⟩⟩
    (∀ binding, Answers (Source.ofTables householdTables) binding (householdTables binding)) ∧
      (∀ binding, Answers (Source.ofTables tables) binding (tables binding)) ∧
      (∀ binding, householdFactor binding ≠ 0) ∧
      (∀ binding, ∀ row ∈ householdTables binding,
        Fits (householdFactor binding * row.value.toInt)) ∧
      (c.evaluate (Source.ofTables householdTables) "prices" .index query).outcome =
        .ok [⟨⟨2024, 1, 3, by decide⟩, 100000⟩, ⟨⟨2024, 1, 5, by decide⟩, 141666⟩] ∧
      (c.evaluate (Source.ofTables tables) "prices" .index query).outcome =
        .ok [⟨⟨2024, 1, 3, by decide⟩, 100000⟩, ⟨⟨2024, 1, 5, by decide⟩, 141666⟩] := by
  have hbefore : (household.catalogue.evaluate (Source.ofTables householdTables) "prices" .index
      ⟨.on ⟨2024, 1, 2, by decide⟩, some ⟨2024, 1, 6, by decide⟩⟩).outcome =
        .ok [⟨⟨2024, 1, 3, by decide⟩, 100000⟩, ⟨⟨2024, 1, 5, by decide⟩, 141666⟩] := by
    decide +kernel
  intro c tables query
  have hsource (binding : Binding) :
      Answers (Source.ofTables householdTables) binding (householdTables binding) := by
    apply Source.answers_ofTables
    rw [householdTables]
    split <;> decide
  have hsource' (binding : Binding) : Answers (Source.ofTables tables) binding (tables binding) := by
    apply Source.answers_ofTables
    show ((householdTables binding).map (Recorded.times (householdFactor binding))).Pairwise _
    rw [List.pairwise_map]
    exact (hsource binding).distinct
  have hfactor (binding : Binding) : householdFactor binding ≠ 0 := by
    rw [householdFactor]
    split <;> decide
  have hfits (binding : Binding) : ∀ row ∈ householdTables binding,
      Fits (householdFactor binding * row.value.toInt) := by
    rw [householdTables, householdFactor]
    split <;> decide
  refine ⟨hsource, hsource', hfactor, hfits, hbefore, ?_⟩
  exact (evaluate_index_times (fun binding _ => hsource binding) (fun binding _ => hsource' binding)
    (fun binding _ => hfactor binding) (fun binding _ => hfits binding) query).trans hbefore

end Catalogue
end TimeSeries
