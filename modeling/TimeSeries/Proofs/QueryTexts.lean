import TimeSeries.Proofs.CanonicalDates
import TimeSeries.Proofs.Traversal

/-!
The texts of a query. What is read from texts or from JSON arguments is a query within the years 0
to 9999 that does not end before it starts, and only its own texts are read as it, up to an end that
is empty or missing.
-/
namespace TimeSeries

theorem Date.text_ne_of_parseDate {s : String} {e : Error} (hs : parseDate s = .error e) {d : Date}
    (h : d.IsFourDigit) : d.text ≠ s := by
  intro heq
  rw [parseDate_eq_ok_iff.2 ⟨h, heq.symm⟩] at hs
  cases hs

namespace DateSelector

/-- How a caller writes the start of a query. -/
def text : DateSelector → String
  | .earliest => zeroDate
  | .latest => ""
  | .on d => d.text

theorem parse_eq_ok_iff {s : String} {selector : DateSelector} : parse s = .ok selector ↔
    (∀ d, selector = .on d → d.IsFourDigit) ∧ s = selector.text := by
  constructor
  · intro h
    rw [parse] at h
    split at h
    · next hs =>
      cases h
      refine ⟨fun d hd => ?_, hs⟩
      cases hd
    · split at h
      · next hs =>
        cases h
        refine ⟨fun d hd => ?_, hs⟩
        cases hd
      · obtain ⟨d, hd, rfl⟩ := map_eq_ok_iff.1 h
        obtain ⟨hfour, hs⟩ := parseDate_eq_ok_iff.1 hd
        refine ⟨fun d' hd' => ?_, hs⟩
        cases hd'
        exact hfour
  · rintro ⟨h, rfl⟩
    cases selector with
    | earliest => rfl
    | latest => rfl
    | on d =>
      have hempty : d.text ≠ "" := Date.text_ne_of_parseDate rfl (h d rfl)
      have hzero : d.text ≠ zeroDate := Date.text_ne_of_parseDate rfl (h d rfl)
      rw [text, parse, if_neg hempty, if_neg hzero, parseDate_eq_ok_iff.2 ⟨h d rfl, rfl⟩]
      rfl

end DateSelector

namespace Query

/-- The dates are within the years 0 to 9999, and a range does not end before it starts. -/
structure IsValid (q : Query) : Prop where
  date : ∀ d, q.date = .on d → d.IsFourDigit
  dateTo : ∀ d, q.dateTo = some d → d.IsFourDigit
  le : ∀ first last, q.date = .on first → q.dateTo = some last → first ≤ last

/-- The text of an end, which is none if it is empty. -/
def given (s : Option String) : Option String := s.filter (· ≠ "")

/-- A text that may be missing, as one of the arguments of a call. -/
def argument : Option String → Json
  | none => .null
  | some s => .string s

theorem parseEnd_eq_ok_iff {s : Option String} {last : Option Date} : parseEnd s = .ok last ↔
    (∀ d, last = some d → d.IsFourDigit) ∧ given s = last.map Date.text := by
  constructor
  · intro h
    cases s with
    | none =>
      cases h
      refine ⟨fun d hd => ?_, rfl⟩
      cases hd
    | some s =>
      rw [parseEnd] at h
      split at h
      · next hs =>
        cases h
        subst hs
        refine ⟨fun d hd => ?_, rfl⟩
        cases hd
      · next hs =>
        obtain ⟨d, hd, rfl⟩ := map_eq_ok_iff.1 h
        obtain ⟨hfour, rfl⟩ := parseDate_eq_ok_iff.1 hd
        refine ⟨fun d' hd' => ?_, by simp [given, hs]⟩
        cases hd'
        exact hfour
  · rintro ⟨h, hs⟩
    cases last with
    | none =>
      cases s with
      | none => rfl
      | some s =>
        obtain rfl : s = "" := by simpa [given] using hs
        rfl
    | some d =>
      obtain ⟨rfl, hne⟩ : s = some d.text ∧ d.text ≠ "" := by simpa [given] using hs
      rw [parseEnd, if_neg hne, parseDate_eq_ok_iff.2 ⟨h d rfl, rfl⟩]
      rfl

theorem checked_eq_ok_iff {q query : Query} : checked q = .ok query ↔
    query = q ∧ ∀ first last, q.date = .on first → q.dateTo = some last → first ≤ last := by
  rcases q with ⟨_ | _ | first, _ | last⟩
  case on.some =>
    constructor
    · intro h
      rw [checked] at h
      split at h
      · cases h
      · next hle =>
        refine ⟨(Except.ok.inj h).symm, fun first' last' hfirst hlast => ?_⟩
        cases hfirst
        cases hlast
        exact Std.not_lt.1 hle
    · rintro ⟨rfl, h⟩
      rw [checked, if_neg (Std.not_lt.2 (h first last rfl rfl))]
  all_goals simp [checked, eq_comm]

theorem dates_of_resolution {q : Query} {first last : Date}
    (h : q.resolution = .range first last) : q.date = .on first ∧ q.dateTo = some last := by
  rcases q with ⟨_ | _ | _, _ | _⟩
  case on.some =>
    cases h
    exact ⟨rfl, rfl⟩
  all_goals cases h

/-- A query that passes the check asks for no range that ends before it starts. -/
theorem le_of_checked {query : Query} {first last : Date} (h : query.checked = .ok query)
    (hrange : query.resolution = .range first last) : first ≤ last := by
  obtain ⟨hfirst, hlast⟩ := dates_of_resolution hrange
  exact (checked_eq_ok_iff.1 h).2 first last hfirst hlast

theorem parse_eq_ok_iff {s : String} {t : Option String} {q : Query} : parse s t = .ok q ↔
    q.IsValid ∧ s = q.date.text ∧ given t = q.dateTo.map Date.text := by
  rw [parse]
  simp only [bind_eq_ok_iff, DateSelector.parse_eq_ok_iff, parseEnd_eq_ok_iff, checked_eq_ok_iff]
  constructor
  · rintro ⟨selector, ⟨hselector, hs⟩, last, ⟨hlast, ht⟩, rfl, hle⟩
    exact ⟨⟨hselector, hlast, hle⟩, hs, ht⟩
  · rintro ⟨⟨hselector, hlast, hle⟩, hs, ht⟩
    exact ⟨q.date, ⟨hselector, hs⟩, q.dateTo, ⟨hlast, ht⟩, rfl, hle⟩

theorem ofArguments_argument (s : String) (t : Option String) :
    ofArguments [.string s, argument t] = parse s t := by
  cases t <;> rfl

theorem stringArgument_eq_ok_iff {json : Json} {s : String} :
    stringArgument json = .ok s ↔ json = .string s := by
  cases json <;> simp [stringArgument]

theorem optionalStringArgument_eq_ok_iff {json : Json} {t : Option String} :
    optionalStringArgument json = .ok t ↔ json = argument t := by
  cases json <;> cases t <;> simp [optionalStringArgument, argument]

theorem ofArguments_eq_ok_iff {args : List Json} {q : Query} : ofArguments args = .ok q ↔
    ∃ s t, args = [.string s, argument t] ∧ parse s t = .ok q := by
  constructor
  · intro h
    unfold ofArguments at h
    split at h
    · next date dateTo =>
      obtain ⟨s, hs, hrest⟩ := bind_eq_ok_iff.1 h
      obtain ⟨t, ht, hparse⟩ := bind_eq_ok_iff.1 hrest
      rw [stringArgument_eq_ok_iff.1 hs, optionalStringArgument_eq_ok_iff.1 ht]
      exact ⟨s, t, rfl, hparse⟩
    · cases h
  · rintro ⟨s, t, rfl, h⟩
    rw [ofArguments_argument, h]

theorem range_eq_ok_iff {first last : Date} {q : Query} :
    range first last = .ok q ↔ first ≤ last ∧ q = ⟨.on first, some last⟩ := by
  rw [range, checked_eq_ok_iff]
  constructor
  · rintro ⟨rfl, h⟩
    exact ⟨h first last rfl rfl, rfl⟩
  · rintro ⟨h, rfl⟩
    refine ⟨rfl, fun first' last' hfirst hlast => ?_⟩
    cases hfirst
    cases hlast
    exact h

/-- Texts and queries within the years 0 to 9999 that do not end before they start are one to one,
up to an end that is empty or missing. -/
theorem parse_texts :
    (∀ s t q, parse s t = .ok q ↔
      q.IsValid ∧ s = q.date.text ∧ given t = q.dateTo.map Date.text) ∧
    (∀ args q, ofArguments args = .ok q ↔
      ∃ s t, args = [.string s, argument t] ∧ parse s t = .ok q) ∧
    (∀ s t, ofArguments [.string s, argument t] = parse s t) ∧
    (∀ first last q, range first last = .ok q ↔ first ≤ last ∧ q = ⟨.on first, some last⟩) ∧
    ∀ q, ((∃ s t, parse s t = .ok q) ∨ (∃ args, ofArguments args = .ok q) ∨
        ∃ first last, range first last = .ok q) →
      ∀ first last, q.resolution = .range first last → first ≤ last := by
  refine ⟨fun _ _ _ => parse_eq_ok_iff, fun _ _ => ofArguments_eq_ok_iff, ofArguments_argument,
    fun _ _ _ => range_eq_ok_iff, fun q hq first last hrange => ?_⟩
  obtain ⟨hfirst, hlast⟩ := dates_of_resolution hrange
  rcases hq with ⟨s, t, h⟩ | ⟨args, h⟩ | ⟨first', last', h⟩
  · exact (parse_eq_ok_iff.1 h).1.le first last hfirst hlast
  · obtain ⟨s, t, -, h⟩ := ofArguments_eq_ok_iff.1 h
    exact (parse_eq_ok_iff.1 h).1.le first last hfirst hlast
  · obtain ⟨rfl, hle⟩ := checked_eq_ok_iff.1 h
    exact hle first last hfirst hlast

/-- January as a range, its first day with an empty end, and ranges that are not read. -/
theorem parse_texts_january :
    let first : Date := ⟨2024, 1, 1, by decide⟩
    let last : Date := ⟨2024, 1, 31, by decide⟩
    let january : Query := ⟨.on first, some last⟩
    january.IsValid ∧ january.date.text = "2024-01-01" ∧ last.text = "2024-01-31" ∧
      january.resolution = .range first last ∧ first ≤ last ∧
      parse "2024-01-01" (some "2024-01-31") = .ok january ∧
      ofArguments [.string "2024-01-01", .string "2024-01-31"] = .ok january ∧
      ofArguments [.string "2024-01-01", .string ""] = .ok (on first) ∧
      ofArguments [.string "0000-00-00", .null] = .ok earliest ∧
      parse "2024-01-31" (some "2024-01-01") = .error (.dateRangeInverted last first) ∧
      parse "2024-01-01" (some "0000-00-00") = .error (.invalidDateFormat "0000-00-00") := by
  intro first last january
  obtain ⟨hparse, hargs, heq, -, hle⟩ := parse_texts
  have hfour : first.IsFourDigit ∧ last.IsFourDigit ∧ first ≤ last := by decide
  have hvalid : january.IsValid := by
    constructor
    · rintro _ ⟨⟩
      exact hfour.1
    · rintro _ ⟨⟩
      exact hfour.2.1
    · rintro _ _ ⟨⟩ ⟨⟩
      exact hfour.2.2
  have hread : parse "2024-01-01" (some "2024-01-31") = .ok january :=
    (hparse _ _ _).2 ⟨hvalid, by decide, by decide⟩
  have hday : parse "2024-01-01" (some "") = .ok (on first) := rfl
  have hinverted : parse "2024-01-31" (some "2024-01-01") =
      .error (.dateRangeInverted last first) := by
    have hlast : DateSelector.parse "2024-01-31" = .ok (.on last) := rfl
    have hfirst : parseEnd (some "2024-01-01") = .ok (some first) := rfl
    have hlt : first < last := by decide
    rw [parse, hlast, hfirst, ok_bind, ok_bind, checked, if_pos hlt]
  have hrange := hle january (.inl ⟨_, _, hread⟩) first last rfl
  refine ⟨hvalid, by decide, by decide, rfl, hrange, hread, (hargs _ _).2 ⟨_, _, rfl, hread⟩, ?_,
    rfl, hinverted, rfl⟩
  rw [← hday]
  exact heq "2024-01-01" (some "")

end Query
end TimeSeries
