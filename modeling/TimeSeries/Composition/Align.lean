import TimeSeries.Observation

/-!
Aligning series onto the union of their dates. On each date a series counts with its own value, or
else with the last one before; dates on which some series has no value yet are left out.
-/
namespace TimeSeries.Align

/-- The values of a series by date; of several for one date the last listed counts. -/
def byDate (series : List Observation) : SortedMap Date Value :=
  .ofList (series.map fun o => (o.date, o.value))

/-- Every date of some series, ascending and once each. -/
def axis (series : List (List Observation)) : List Date :=
  (SortedMap.ofList ((series.flatten).map fun o => (o.date, ()))).keys

/-- The last known value of each series, brought up to a date. -/
def advance (date : Date) (maps : List (SortedMap Date Value)) (known : List (Option Value)) :
    List (Option Value) :=
  List.zipWith (fun m last => (m.find? date).or last) maps known

/-- Every value, when none is missing. -/
def complete? : List (Option Value) → Option (List Value)
  | [] => some []
  | none :: _ => none
  | some v :: rest => (complete? rest).map (v :: ·)

/-- Walk along the dates with the last known values, leaving out dates where one is missing. -/
def sweep (maps : List (SortedMap Date Value)) :
    List (Option Value) → List Date → List (Date × List Value)
  | _, [] => []
  | known, date :: dates =>
    let known := advance date maps known
    match complete? known with
    | some values => (date, values) :: sweep maps known dates
    | none => sweep maps known dates

/-- A row per date that every series has reached, with the value of each series in turn. -/
def rows (series : List (List Observation)) : List (Date × List Value) :=
  sweep (series.map byDate) (series.map fun _ => none) (axis series)

/-- The columns of rows of a given width. -/
def columns : Nat → List (Date × List Value) → List (List Observation)
  | 0, _ => []
  | width + 1, rows =>
    rows.filterMap (fun (date, values) => values.head?.map (⟨date, ·⟩)) ::
      columns width (rows.map fun (date, values) => (date, values.tail))

/-- Every series on the same dates. -/
def fillForward (series : List (List Observation)) : List (List Observation) :=
  columns series.length (rows series)

end TimeSeries.Align
