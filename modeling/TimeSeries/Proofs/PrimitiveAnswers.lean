import TimeSeries.Proofs.History
import TimeSeries.Proofs.Traversal

/-!
What a primitive series answers when every lookup is answered as documented: a function of its table
alone, and over a range of days the same as day by day.
-/
namespace TimeSeries.Primitive

open Align (AgreesOn)
open Recorded (chronology)

/-- The observations that a table has for a query. -/
def observations (rows : List Recorded) : Resolution → List Observation
  | .base => (chronology.pick? rows .base).toList.map (·.toObservation)
  | .latest => (chronology.pick? rows .latest).toList.map (·.toObservation)
  | .exact day => (valueOn? rows day).toList.map (⟨day, ·⟩)
  | .range first last => history rows first last

/-- The row of a day, or else the value carried to it, is the value of the table on the day. -/
theorem fromFirst_exact {rows : List Recorded} (hd : chronology.Distinct rows) (day : Date) :
    fromFirst rows day (latestPerDate (chronology.pick? rows (.exact day)).toList) =
      (valueOn? rows day).toList.map (⟨day, ·⟩) := by
  rw [fromFirst]
  cases hp : chronology.pick? rows (.exact day) with
  | none =>
    have hempty : latestPerDate [] = [] := rfl
    simp [hempty]
  | some row =>
    have hone : latestPerDate [row] = [row.toObservation] := rfl
    obtain rfl := date_of_pick? hp
    have hvalue : valueOn? rows row.date = some row.value := by
      rw [valueOn?, pick?_upTo_of_exact hd hp]
      rfl
    simp [hone, hvalue]

section Found
variable {source : Source} {binding : Binding} {day : Date} {found : List Recorded}

theorem outcome_fetch_of_ok {lookup : Lookup} (h : source binding lookup = .ok found) :
    (fetch source binding lookup).outcome = .ok found := by
  rw [fetch, Traced.read, h]
  rfl

/-- A day is answered from what is found for it. -/
theorem outcome_value_of_exact_found (h : source binding (.exact day) = .ok found) :
    (value source binding (.on day)).outcome =
      (backfill source binding day (latestPerDate found)).outcome >>= nonempty := by
  show (fetch source binding (.exact day) >>= _).outcome = _
  rw [Traced.outcome_bind, outcome_fetch_of_ok h, ok_bind, Traced.outcome_bind]
  rfl

/-- A range is answered from what is found for it. -/
theorem outcome_value_of_range_found {last : Date}
    (h : source binding (.range day last) = .ok found) :
    (value source binding ⟨.on day, some last⟩).outcome =
      (backfill source binding day (latestPerDate found)).outcome >>= nonempty := by
  show (fetch source binding (.range day last) >>= _).outcome = _
  rw [Traced.outcome_bind, outcome_fetch_of_ok h, ok_bind, Traced.outcome_bind]
  rfl

/-- A day with a row of its own needs no other. -/
theorem backfill_of_date {row : Recorded} (hdate : row.date = day) :
    (backfill source binding day [row.toObservation]).outcome = .ok [row.toObservation] := by
  have hhead : [row.toObservation].head?.map (·.date) = some day := congrArg some hdate
  rw [backfill, if_pos hhead]
  rfl

end Found

section Value
variable {source : Source} {binding : Binding} {rows : List Recorded}
  (h : Answers source binding rows)
include h

theorem outcome_fetch {lookup : Lookup} (hone : ∀ first last, lookup ≠ .range first last) :
    (fetch source binding lookup).outcome = .ok (chronology.pick? rows lookup).toList := by
  obtain ⟨found, hfound, hdoc⟩ := h.documented lookup
  have hpick : Chronology.IsPick (chronology.covers lookup) (chronology.order lookup) rows found := by
    cases lookup with
    | range first last => exact absurd rfl (hone first last)
    | _ => exact hdoc
  rw [outcome_fetch_of_ok hfound, (Chronology.isPick_iff h.chronology_distinct).1 hpick]

theorem outcome_fetch_range (first last : Date) :
    ∃ found, (fetch source binding (.range first last)).outcome = .ok found ∧
      (rows.filter (chronology.covers (.range first last))).Perm found := by
  obtain ⟨found, hfound, hdoc⟩ := h.documented (.range first last)
  exact ⟨found, outcome_fetch_of_ok hfound, hdoc.symm⟩

theorem outcome_single {lookup : Lookup} (hone : ∀ first last, lookup ≠ .range first last)
    (what : String) : (single source binding lookup what).outcome =
      .ok ((chronology.pick? rows lookup).toList.map (·.toObservation)) := by
  rw [single, Traced.outcome_bind, outcome_fetch h hone]
  cases chronology.pick? rows lookup <;> rfl

theorem outcome_backfill (day : Date) (found : List Observation) :
    (backfill source binding day found).outcome = .ok (fromFirst rows day found) := by
  rw [backfill, fromFirst]
  split
  · rfl
  · rw [Traced.outcome_bind, outcome_single h (by simp), valueOn?]
    cases chronology.pick? rows (.onOrBefore day) <;> rfl

/-- The value of a primitive series is what its table has for the query. -/
theorem outcome_value (query : Query) : (value source binding query).outcome =
    nonempty (observations rows query.resolution) := by
  have hd := h.chronology_distinct
  rw [value]
  cases query.resolution with
  | base =>
    dsimp only
    rw [Traced.outcome_bind, outcome_single h (by simp), ok_bind]
    rfl
  | latest =>
    dsimp only
    rw [Traced.outcome_bind, outcome_single h (by simp), ok_bind]
    rfl
  | exact day =>
    dsimp only
    rw [Traced.outcome_bind, outcome_fetch h (by simp), ok_bind, Traced.outcome_bind,
      outcome_backfill h, ok_bind, fromFirst_exact hd]
    rfl
  | range first last =>
    obtain ⟨found, hfound, hperm⟩ := outcome_fetch_range h first last
    dsimp only
    rw [Traced.outcome_bind, hfound, ok_bind, Traced.outcome_bind, outcome_backfill h, ok_bind,
      ← latestPerDate_perm (hd.filter _) hperm]
    rfl

end Value

/-! ## Indices -/

/-- An index goes by the values of the earliest day and of the query alone. -/
theorem outcome_index (source : Source) (binding : Binding) (query : Query) :
    (index source binding query).outcome =
      (value source binding .earliest).outcome >>= fun bases =>
        match bases with
        | [base] => (value source binding query).outcome >>= fun current =>
          if query.isSinglePoint ∧ current.length ≠ 1 then
            .error (.expectedExactlyOne "current value" current.length)
          else current.mapM (relativeTo base.value)
        | _ => .error (.expectedExactlyOne "base value" bases.length) := by
  rw [index, Traced.outcome_bind]
  congr 1
  funext bases
  rcases bases with _ | ⟨base, _ | ⟨second, rest⟩⟩
  · rfl
  · rw [Traced.outcome_bind]
    congr 1
    funext current
    split <;> rfl
  · rfl

/-- Sources that answer from the same table give the same answers. -/
theorem outcome_call_eq {source source' : Source} {binding : Binding} {rows : List Recorded}
    (h : Answers source binding rows) (h' : Answers source' binding rows) (method : Method)
    (query : Query) : (call source binding method query).outcome =
      (call source' binding method query).outcome := by
  cases method with
  | value =>
    change (value source binding query).outcome = (value source' binding query).outcome
    rw [outcome_value h, outcome_value h']
  | index =>
    change (index source binding query).outcome = (index source' binding query).outcome
    simp only [outcome_index, outcome_value h, outcome_value h']

/-! ## Ranges -/

theorem nonempty_eq_ok_iff {found result : List Observation} :
    nonempty found = .ok result ↔ found = result ∧ found ≠ [] := by
  cases found <;> simp [nonempty]

theorem relativeTo_eq_ok_iff {base : Value} {o p : Observation} :
    relativeTo base o = .ok p ↔
      p.date = o.date ∧ fractionTowardZero o.value indexScale base = .ok p.value := by
  obtain ⟨date, value⟩ := p
  rw [relativeTo, bind_eq_ok_iff]
  simp [and_comm, eq_comm]

section Ranges
variable {source : Source} {binding : Binding} {rows : List Recorded} {first last day : Date}
  (h : Answers source binding rows)
include h

theorem outcome_value_on (day : Date) : (value source binding (.on day)).outcome =
    nonempty ((valueOn? rows day).toList.map (⟨day, ·⟩)) := outcome_value h _

/-- The values of a range agree with the value of each of its days. -/
theorem value_agreesOn {found : List Observation}
    (hrange : (value source binding ⟨.on first, some last⟩).outcome = .ok found)
    (hfirst : first ≤ day) (hlast : day ≤ last) :
    found.Pairwise (·.date < ·.date) ∧
      AgreesOn found day (value source binding (.on day)).outcome := by
  rw [outcome_value h] at hrange
  obtain ⟨rfl, -⟩ := nonempty_eq_ok_iff.1 hrange
  refine ⟨history_ascending rows first last, ?_⟩
  change AgreesOn (history rows first last) day _
  rw [AgreesOn, carried?_history h.chronology_distinct hfirst hlast, outcome_value_on h]
  cases valueOn? rows day with
  | none => exact ⟨_, rfl, rfl⟩
  | some v => rfl

theorem index_agreesOn {found : List Observation}
    (hrange : (index source binding ⟨.on first, some last⟩).outcome = .ok found)
    (hfirst : first ≤ day) (hlast : day ≤ last) :
    found.Pairwise (·.date < ·.date) ∧
      AgreesOn found day (index source binding (.on day)).outcome := by
  rw [outcome_index, bind_eq_ok_iff] at hrange
  obtain ⟨bases, hbases, hrange⟩ := hrange
  rcases bases with _ | ⟨base, _ | ⟨second, rest⟩⟩
  · cases hrange
  · obtain ⟨current, hcurrent, hrange⟩ := bind_eq_ok_iff.1 hrange
    rw [if_neg (by simp [Query.isSinglePoint]), mapM_eq_ok_iff] at hrange
    obtain ⟨hasc, hagrees⟩ := value_agreesOn h hcurrent hfirst hlast
    have hrows : List.Forall₂ (fun o p => p.date = o.date ∧
        fractionTowardZero o.value indexScale base.value = .ok p.value) current found :=
      hrange.imp fun o p => relativeTo_eq_ok_iff.1
    have hdates : current.map (·.date) = found.map (·.date) := by
      apply map_eq_of_forall₂ hrows
      intro o p hop
      exact hop.1.symm
    refine ⟨?_, ?_⟩
    · apply List.pairwise_map.1
      rw [← hdates]
      exact List.pairwise_map.2 hasc
    · have hcarried := Align.carried?_forall₂
        (R := fun v w => fractionTowardZero v indexScale base.value = .ok w) hrows day
      rw [AgreesOn] at *
      rw [outcome_index, hbases, ok_bind]
      dsimp only
      generalize Align.carried? day current = v? at *
      generalize Align.carried? day found = w? at *
      cases hcarried with
      | none =>
        obtain ⟨e, he, hinnermost⟩ := hagrees
        rw [he, error_bind]
        exact ⟨e, rfl, hinnermost⟩
      | some hvw =>
        dsimp only at hagrees ⊢
        rw [hagrees, ok_bind, if_neg (by simp)]
        simp [relativeTo, hvw]
  · cases hrange

/-- The answer for a range agrees with the answer for each of its days. -/
theorem call_agreesOn {method : Method} {found : List Observation}
    (hrange : (call source binding method ⟨.on first, some last⟩).outcome = .ok found)
    (hfirst : first ≤ day) (hlast : day ≤ last) :
    found.Pairwise (·.date < ·.date) ∧
      AgreesOn found day (call source binding method (.on day)).outcome := by
  cases method with
  | value => exact value_agreesOn h hrange hfirst hlast
  | index => exact index_agreesOn h hrange hfirst hlast

end Ranges

end TimeSeries.Primitive
