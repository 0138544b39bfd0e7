import TimeSeries.Binding
import TimeSeries.Decimal
import TimeSeries.Fraction
import TimeSeries.Sorted

/-!
Compositions: series that are a weighted sum of other series, their constituents. A composition that
is built here lists its constituents once each, ascending by identifier, with the exact sum of
their weights; one that is read from elsewhere may be any list with any total.
-/
namespace TimeSeries

structure Constituent where
  id : SeriesId
  weight : Value
  deriving DecidableEq

structure Composition where
  constituents : List Constituent
  totalWeight : Value
  deriving DecidableEq

namespace Composition

/-- The first identifier that stands twice in a row. -/
def firstRepeated : List Constituent → Option SeriesId
  | a :: b :: rest => if a.id = b.id then some a.id else firstRepeated (b :: rest)
  | _ => none

/-- A sum, every partial sum of which fits. -/
def sum (values : List Value) : Except Error Value :=
  values.foldlM (fun total v => fitting (total.toInt + v.toInt)) 0

def ofWeights (weights : List (SeriesId × Value)) : Except Error Composition :=
  let sorted := Sorted.sort (fun a b => decide (a.id ≤ b.id))
    (weights.map fun (id, weight) => ⟨id, weight⟩)
  match sorted, firstRepeated sorted with
  | [], _ => .error .noConstituents
  | _, some id => .error (.duplicateConstituent id)
  | _, none => do
    let total ← sum (sorted.map (·.weight))
    return ⟨sorted, total⟩

/-- What comes before `suffix` in a text that ends in it. -/
def stem? (suffix text : List Char) : Option (List Char) :=
  if suffix.isSuffixOf text then some (text.take (text.length - suffix.length)) else none

/-- The weight that metadata gives to the constituent named under a key, if the key names one. -/
def weightOf? (metadata : Metadata) (key id : String) :
    Except Error (Option (SeriesId × Value)) :=
  match stem? "_id".toList key.toList with
  | none => .ok none
  | some stem =>
    match (metadata.find? (String.ofList stem ++ "_weight")).bind Decimal.value? with
    | some weight => .ok (some (id, weight))
    | none => .error (.missingWeight id)

/-- A constituent is an entry `<key>_id` with its identifier and an entry `<key>_weight` with its
weight in decimal. -/
def ofMetadata (metadata : Metadata) : Except Error Composition := do
  let weights ← metadata.toList.mapM fun (key, id) => weightOf? metadata key id
  ofWeights (weights.filterMap id)

end Composition
end TimeSeries
