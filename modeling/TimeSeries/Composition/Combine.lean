import TimeSeries.Composition
import TimeSeries.Composition.Align
import TimeSeries.Traced

/-!
Combining the series of constituents. Each is scaled by its share of the total weight, all are
aligned, and the values of each date are added up. No value wraps: what does not fit is an error.
-/
namespace TimeSeries.Composition

/-- A weight with three more digits. -/
def magnified (weight : Value) : Except Error Value := fitting (weight.toInt * magnifier.toInt)

/-- Every value scaled by `weight / totalWeight`. -/
def weigh (series : List Observation) (weight totalWeight : Value) :
    Except Error (List Observation) := do
  let numerator ← magnified weight
  let denominator ← magnified totalWeight
  series.mapM fun o => do
    let value ← fraction o.value numerator denominator
    return ⟨o.date, value⟩

/-- A value added to the total of its date. -/
def addOn (total o : Observation) : Except Error Observation := do
  if total.date = o.date then
    let value ← fitting (total.value.toInt + o.value.toInt)
    return ⟨total.date, value⟩
  else throw .inconsistentSeriesLength

/-- A series added to the totals of its dates, one by one. -/
def addTo (totals series : List Observation) : Except Error (List Observation) :=
  if series.length = totals.length then (totals.zip series).mapM fun (total, o) => addOn total o
  else .error .inconsistentSeriesLength

/-- The values of each date added up, series by series, on the dates of the first one. -/
def sumAligned : List (List Observation) → Except Error (List Observation)
  | [] => .ok []
  | first :: rest => (first :: rest).foldlM addTo (first.map fun o => ⟨o.date, 0⟩)

/-- A total weight that cannot be divided by fails before any constituent is asked for. -/
def checkTotal (totalWeight : Value) : Except Error Unit := do
  let denominator ← magnified totalWeight
  if denominator = 0 then throw .divisionByZero

section Resolver
variable {m : Type → Type} [Monad m] [MonadLiftT (Except Error) m]

/-- The series of one constituent, weighted. -/
def contribution (c : Composition) (resolve : SeriesId → m (List Observation))
    (constituent : Constituent) : m (List Observation) := do
  let series ← resolve constituent.id
  let weighted : Except Error (List Observation) :=
    (weigh series constituent.weight c.totalWeight).mapError (.constituent constituent.id)
  weighted

/-- Ask for the series of each constituent in stored order, and combine them. The first failure
ends it. What else the resolver does as it is asked is up to the monad it works in. -/
def combineWith (c : Composition) (resolve : SeriesId → m (List Observation)) :
    m (List Observation) := do
  checkTotal c.totalWeight
  let weighted ← c.constituents.mapM (contribution c resolve)
  sumAligned (Align.fillForward weighted)

end Resolver

end TimeSeries.Composition
