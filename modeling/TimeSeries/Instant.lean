import TimeSeries.Date.Text

/-!
Moments of universal time, to the nanosecond. A minute may end in a leap second, which is counted
as the second nanosecond billion of its 59th second. The stamp of a moment has a fixed width in the
years 0 to 9999, where the order of stamps as text is the order of moments, to the microsecond.
-/
namespace TimeSeries

structure Instant where
  date : Date
  /-- The second of the day. -/
  second : Nat
  nano : Nat
  second_lt : second < 86400
  nano_lt : nano < 1000000000 ∨ second % 60 = 59 ∧ nano < 2000000000
  deriving DecidableEq

namespace Instant

open Date (twoDigits)

def microsecond (t : Instant) : Nat := t.nano / 1000

def sixDigits (n : Nat) : List Char :=
  twoDigits (n / 10000) ++ twoDigits (n / 100 % 100) ++ twoDigits (n % 100)

/-- `YYYY-MM-DDTHH:MM:SS.ffffffZ`; a leap second is shown as second 60. -/
def stamp (t : Instant) : String :=
  let seconds := t.second % 60 + t.microsecond / 1000000
  String.ofList (t.date.chars ++ 'T' :: twoDigits (t.second / 3600) ++
    ':' :: twoDigits (t.second / 60 % 60) ++ ':' :: twoDigits seconds ++
    '.' :: sixDigits (t.microsecond % 1000000) ++ ['Z'])

/-- The moment a number of seconds after the start of 1970, when its year is one that can be
told. -/
def ofUnix? (seconds : Int) (nano : Nat) : Option Instant := do
  let date ← Date.ofDayNumber? (seconds / 86400)
  let second := (seconds % 86400).toNat
  if h : second < 86400 ∧ (nano < 1000000000 ∨ second % 60 = 59 ∧ nano < 2000000000) then
    if Date.firstYear ≤ date.year ∧ date.year ≤ Date.lastYear then
      some ⟨date, second, nano, h.1, h.2⟩
    else none
  else none

/-- The start of the following second. -/
def nextSecond (t : Instant) : Instant :=
  if h : t.second + 1 < 86400 then ⟨t.date, t.second + 1, 0, h, .inl (by decide)⟩
  else ⟨t.date.next, 0, 0, by decide, .inl (by decide)⟩

example : (ofUnix? 1704067200 1500).map stamp = some "2024-01-01T00:00:00.000001Z" := by decide
example : (ofUnix? 253402300800 0).map stamp = some "+10000-01-01T00:00:00.000000Z" := by decide
example : (ofUnix? (-62167219201) 0).map stamp = some "-0001-12-31T23:59:59.000000Z" := by decide
example : (ofUnix? 59 1000000000).map stamp = some "1970-01-01T00:00:60.000000Z" := by decide

end Instant

/-- A clock that shows one second more each time it is read. -/
structure Clock where
  now : Instant

namespace Clock

/-- The clock that shows the start of 2024 first. -/
def start : Clock := ⟨⟨⟨2024, 1, 1, by decide⟩, 0, 0, by decide, by decide⟩⟩

def tick (c : Clock) : Clock := ⟨c.now.nextSecond⟩

end Clock
end TimeSeries
