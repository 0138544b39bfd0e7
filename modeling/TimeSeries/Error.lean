import TimeSeries.Date.Text
import TimeSeries.Schema
import TimeSeries.Text.Quoted

/-!
Why a request, a registration or an evaluation fails. A failure inside a constituent of a
composition is the constituent's own, tagged with its identifier; what went wrong is decided by the
innermost cause alone.
-/
namespace TimeSeries

/-- The key a series is registered under: any text. -/
abbrev SeriesId := String

inductive Error where
  | invalidArgumentType (argument expected got : String)
  | invalidArgumentArity (expected got : Nat)
  | unknownMethod (name : String)
  | invalidDateFormat (text : String)
  | dateRangeInverted (first last : Date)
  | noDataFound
  | expectedExactlyOne (what : String) (got : Nat)
  | divisionByZero
  | overflow
  | inconsistentSeriesLength
  | unknownSeries (id : SeriesId)
  | cyclicComposition (id : SeriesId)
  /-- A failure inside a constituent. -/
  | constituent (id : SeriesId) (cause : Error)
  | missingWeight (id : String)
  | noConstituents
  | duplicateConstituent (id : SeriesId)
  | missingTable
  | tableNotFound (name : String)
  | columnNotFound (role column : String)
  | columnTypeMismatch (role column : String) (expected found : ColumnType)
  | invalidIdentifier (name : String)
  | seriesExists (id : SeriesId)
  | notPrimitive (id : SeriesId)
  /-- The store failed, with its own words if it has any. -/
  | backingStore (detail : Option String)
  deriving DecidableEq

namespace Error

def message : Error → String
  | invalidArgumentType argument expected got =>
    "expected " ++ expected ++ " for " ++ argument ++ ", got " ++ got
  | invalidArgumentArity expected got =>
    "expected " ++ Decimal.text expected ++ " arguments, got " ++ Decimal.text got
  | unknownMethod name => "unknown method: " ++ name
  | invalidDateFormat text => "invalid date: " ++ Text.quoted text
  | dateRangeInverted first last =>
    "date_to " ++ last.text ++ " is before date " ++ first.text
  | noDataFound => "no data found"
  | expectedExactlyOne what got =>
    "expected a single " ++ what ++ ", got " ++ Decimal.text got ++ " rows"
  | divisionByZero => "denominator cannot be zero"
  | overflow => "result does not fit in a 64-bit integer"
  | inconsistentSeriesLength => "different number of results from constituents"
  | unknownSeries id => "unknown series: " ++ id
  | cyclicComposition id => "composition cycle through series " ++ id
  | constituent id cause => "constituent " ++ id ++ ": " ++ cause.message
  | missingWeight id => "missing weight for stream " ++ id
  | noConstituents => "composition has no constituents"
  | duplicateConstituent id => "constituent " ++ id ++ " is listed more than once"
  | missingTable => "missing table config"
  | tableNotFound name => "table " ++ name ++ " not found"
  | columnNotFound role column => role ++ " column " ++ column ++ " not found"
  | columnTypeMismatch role column expected found =>
    role ++ " column " ++ column ++ " must be of type " ++ expected.label ++ ", found " ++
      found.label
  | invalidIdentifier name => "invalid identifier: " ++ Text.quoted name
  | seriesExists id => "series " ++ id ++ " already exists"
  | notPrimitive id => "series " ++ id ++ " is not a primitive series"
  | backingStore none => "backing store error"
  | backingStore (some detail) => "backing store error: " ++ detail

/-- What went wrong, with every constituent tag removed. -/
def innermost : Error → Error
  | constituent _ cause => cause.innermost
  | e => e

end Error
end TimeSeries
