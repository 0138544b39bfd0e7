/-!
Days of the proleptic Gregorian calendar, in any year. A day that does not exist cannot be written
down. Dates are ordered by year, then month, then day; `rank` is that order as an integer.
-/
namespace TimeSeries

namespace Calendar

def isLeap (year : Int) : Bool := year % 4 == 0 && (year % 100 != 0 || year % 400 == 0)

def daysInMonth (year : Int) (month : Nat) : Nat :=
  match month with
  | 2 => if isLeap year then 29 else 28
  | 4 | 6 | 9 | 11 => 30
  | _ => 31

/-- The three numbers name a day of the calendar. -/
def IsDay (year : Int) (month day : Nat) : Prop :=
  1 ≤ month ∧ month ≤ 12 ∧ 1 ≤ day ∧ day ≤ daysInMonth year month

instance (year : Int) (month day : Nat) : Decidable (IsDay year month day) :=
  inferInstanceAs (Decidable (_ ∧ _ ∧ _ ∧ _))

theorem daysInMonth_pos (year : Int) (month : Nat) : 28 ≤ daysInMonth year month := by
  unfold daysInMonth
  split
  · split <;> decide
  all_goals decide

theorem daysInMonth_le (year : Int) (month : Nat) : daysInMonth year month ≤ 31 := by
  unfold daysInMonth
  split
  · split <;> decide
  all_goals decide

end Calendar

open Calendar

structure Date where
  year : Int
  month : Nat
  day : Nat
  isDay : IsDay year month day
  deriving DecidableEq

namespace Date

/-- The date of three numbers, when there is such a day. -/
def ofYmd? (year : Int) (month day : Nat) : Option Date :=
  if h : IsDay year month day then some ⟨year, month, day, h⟩ else none

@[simp] theorem ofYmd?_self (d : Date) : ofYmd? d.year d.month d.day = some d := by
  simp [ofYmd?, d.isDay]

theorem ofYmd?_eq_some_iff {y : Int} {m n : Nat} {d : Date} :
    ofYmd? y m n = some d ↔ d.year = y ∧ d.month = m ∧ d.day = n := by
  constructor
  · intro h
    rw [ofYmd?] at h
    split at h
    · cases h; exact ⟨rfl, rfl, rfl⟩
    · cases h
  · rintro ⟨rfl, rfl, rfl⟩
    exact ofYmd?_self d

/-- The place of a date among all dates; not every integer is the rank of one. -/
def rank (d : Date) : Int := d.year * 372 + d.month * 31 + d.day

instance : LE Date := ⟨fun a b => a.rank ≤ b.rank⟩
instance : LT Date := ⟨fun a b => a.rank < b.rank⟩
instance : DecidableLE Date := fun a b => inferInstanceAs (Decidable (a.rank ≤ b.rank))
instance : DecidableLT Date := fun a b => inferInstanceAs (Decidable (a.rank < b.rank))

theorem le_iff {a b : Date} : a ≤ b ↔ a.rank ≤ b.rank := .rfl
theorem lt_iff {a b : Date} : a < b ↔ a.rank < b.rank := .rfl

/-- A smaller year, else a smaller month, else a smaller day comes first. -/
theorem lt_iff_lex {a b : Date} : a < b ↔
    a.year < b.year ∨ a.year = b.year ∧
      (a.month < b.month ∨ a.month = b.month ∧ a.day < b.day) := by
  obtain ⟨y, m, d, h₁, h₂, h₃, h₄⟩ := a
  obtain ⟨y', m', d', h₁', h₂', h₃', h₄'⟩ := b
  have := daysInMonth_le y m
  have := daysInMonth_le y' m'
  simp only [lt_iff, rank]
  omega

theorem rank_inj {a b : Date} : a.rank = b.rank ↔ a = b := by
  refine ⟨fun h => ?_, congrArg rank⟩
  obtain ⟨y, m, d, h₁, h₂, h₃, h₄⟩ := a
  obtain ⟨y', m', d', h₁', h₂', h₃', h₄'⟩ := b
  have := daysInMonth_le y m
  have := daysInMonth_le y' m'
  simp only [rank] at h
  have hy : y = y' := by omega
  have hm : m = m' := by omega
  have hd : d = d' := by omega
  subst hy hm hd
  rfl

instance : Std.IsLinearOrder Date where
  le_refl _ := Int.le_refl _
  le_trans _ _ _ := Int.le_trans
  le_antisymm _ _ h₁ h₂ := rank_inj.1 (Int.le_antisymm h₁ h₂)
  le_total _ _ := Int.le_total _ _

instance : Std.LawfulOrderLT Date where
  lt_iff a b := by simp only [lt_iff, le_iff]; omega

/-- The day after. -/
def next (d : Date) : Date :=
  if h : d.day + 1 ≤ daysInMonth d.year d.month then
    ⟨d.year, d.month, d.day + 1, d.isDay.1, d.isDay.2.1, by omega, h⟩
  else if h : d.month + 1 ≤ 12 then
    ⟨d.year, d.month + 1, 1, by omega, h, by omega,
      Nat.le_trans (by decide) (daysInMonth_pos _ _)⟩
  else
    ⟨d.year + 1, 1, 1, by omega, by omega, by omega,
      Nat.le_trans (by decide) (daysInMonth_pos _ _)⟩

/-- Days are counted from the first of March of the year 0 in cycles of 400 years, so that a leap
day ends its year. -/
def ofDayNumber? (days : Int) : Option Date :=
  let fromMarch := days + 719468
  let cycle := fromMarch / 146097
  let dayOfCycle := fromMarch % 146097
  let yearOfCycle :=
    (dayOfCycle - dayOfCycle / 1460 + dayOfCycle / 36524 - dayOfCycle / 146096) / 365
  let dayOfYear := dayOfCycle - (365 * yearOfCycle + yearOfCycle / 4 - yearOfCycle / 100)
  let monthFromMarch := (5 * dayOfYear + 2) / 153
  let day := dayOfYear - (153 * monthFromMarch + 2) / 5 + 1
  let month := if monthFromMarch < 10 then monthFromMarch + 3 else monthFromMarch - 9
  let year := yearOfCycle + cycle * 400 + (if month ≤ 2 then 1 else 0)
  ofYmd? year month.toNat day.toNat

example : ofDayNumber? 0 = ofYmd? 1970 1 1 := by decide
example : ofDayNumber? 19782 = ofYmd? 2024 2 29 := by decide
example : ofYmd? 1900 2 29 = none := by decide

end Date
end TimeSeries
