import TimeSeries.Binding
import TimeSeries.Value

/-!
Samples of a series, the rows they are recorded in, and the questions that a primitive series puts
to whatever holds those rows.
-/
namespace TimeSeries

/-- One sample of a series. -/
structure Observation where
  date : Date
  value : Value
  deriving DecidableEq

/-- A stored sample; of two for one date the one created later counts. -/
structure Recorded extends Observation where
  createdAt : String
  deriving DecidableEq

inductive Lookup where
  /-- The earliest row whose value is not zero; the latest created one of its date. -/
  | base
  /-- The most recent row; the latest created one of its date. -/
  | latest
  /-- The row on a date; the latest created one. -/
  | exact (date : Date)
  /-- The most recent row dated on or before a date; the latest created one of its date. -/
  | onOrBefore (date : Date)
  /-- Every row from the first date to the last, superseded ones included. -/
  | range (first last : Date)
  deriving DecidableEq

/-- Answers the lookups of primitive series, or fails with some words of its own or none. -/
abbrev Source := Binding → Lookup → Except (Option String) (List Recorded)

end TimeSeries
