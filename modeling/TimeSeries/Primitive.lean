import TimeSeries.Fraction
import TimeSeries.Observation
import TimeSeries.Query
import TimeSeries.Traced

/-!
Primitive series: observations read straight from one table. A sparse table is a step function, so
a day without a row of its own takes the last value before it, under its own date.
-/
namespace TimeSeries

/-- What an evaluation reads. -/
inductive Read where
  | definition (id : SeriesId)
  | rows (binding : Binding) (lookup : Lookup)
  deriving DecidableEq

namespace Primitive

/-- Keep the later created of two rows for one date; of two created together, the one listed
later. -/
def supersede (kept : SortedMap Date Recorded) (row : Recorded) : SortedMap Date Recorded :=
  match kept.find? row.date with
  | some older => if row.createdAt < older.createdAt then kept else kept.insert row.date row
  | none => kept.insert row.date row

/-- One observation per date, ascending. -/
def latestPerDate (rows : List Recorded) : List Observation :=
  (rows.foldl supersede .empty).toList.map fun entry => entry.2.toObservation

variable (source : Source) (binding : Binding)

def fetch (lookup : Lookup) : Traced Read (List Recorded) :=
  .read (.rows binding lookup) ((source binding lookup).mapError .backingStore)

/-- A lookup that finds one row or none. -/
def single (lookup : Lookup) (what : String) : Traced Read (List Observation) := do
  let rows ← fetch source binding lookup
  if 1 < rows.length then throw (.expectedExactlyOne what rows.length)
  return rows.map (·.toObservation)

/-- Put the last value on or before a date in front, unless the date has one of its own. -/
def backfill (date : Date) (found : List Observation) : Traced Read (List Observation) := do
  if found.head?.map (·.date) = some date then return found
  let before ← single source binding (.onOrBefore date) "last value before requested date"
  match before with
  | [] => return found
  | carried :: _ => return ⟨date, carried.value⟩ :: found

def nonempty (found : List Observation) : Except Error (List Observation) :=
  match found with
  | [] => .error .noDataFound
  | _ => .ok found

/-- The observations that answer a query. -/
def value (query : Query) : Traced Read (List Observation) := do
  let found ← match query.resolution with
    | .base => single source binding .base "base value"
    | .latest => single source binding .latest "latest value"
    | .exact date => do
      let rows ← fetch source binding (.exact date)
      backfill source binding date (latestPerDate rows)
    | .range first last => do
      let rows ← fetch source binding (.range first last)
      backfill source binding first (latestPerDate rows)
  nonempty found

/-- An observation relative to a base value. -/
def relativeTo (base : Value) (o : Observation) : Except Error Observation := do
  let index ← fractionTowardZero o.value indexScale base
  return ⟨o.date, index⟩

/-- The observations that answer a query, relative to the earliest nonzero value. -/
def index (query : Query) : Traced Read (List Observation) := do
  let bases ← value source binding .earliest
  let [base] := bases | throw (.expectedExactlyOne "base value" bases.length)
  let current ← value source binding query
  if query.isSinglePoint ∧ current.length ≠ 1 then
    throw (.expectedExactlyOne "current value" current.length)
  .done (current.mapM (relativeTo base.value))

def call (method : Method) (query : Query) : Traced Read (List Observation) :=
  match method with
  | .value => value source binding query
  | .index => index source binding query

end Primitive
end TimeSeries
