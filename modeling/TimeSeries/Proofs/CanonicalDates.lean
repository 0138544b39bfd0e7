import TimeSeries.Proofs.DateText
import TimeSeries.Proofs.Utf8
import TimeSeries.Query

/-!
The canonical text of a date. A text is accepted as a date exactly when it spells one out in four,
two and two digits, which is what is written of it; and the bytes of such texts are in the order of
the calendar.
-/
namespace TimeSeries

namespace Date

/-- Digits of one width that say the same number are the same. -/
theorem Says.eq {cs cs' : List Char} {width n : Nat} (h : Says cs width n)
    (h' : Says cs' width n) : cs = cs' := by
  apply Decimal.eq_of_ofDigitChars_eq (h.length_eq.trans h'.length_eq.symm) h.digits h'.digits
  rw [h.value_eq, h'.value_eq]

theorem says_iff_nat? {cs : List Char} {width n : Nat} (hw : width ≠ 0) :
    Says cs width n ↔ cs.length = width ∧ Decimal.nat? cs = some n := by
  constructor
  · intro h
    exact ⟨h.length_eq, h.nat? hw⟩
  · rintro ⟨rfl, h⟩
    rw [Decimal.nat?] at h
    split at h
    · next hcs =>
      obtain rfl := Option.some.inj h
      refine ⟨rfl, List.all_eq_true.1 hcs.2, fun start => ?_⟩
      rw [Nat.ofDigitChars_eq_ofDigitChars_zero, Nat.mul_comm]
    · cases h

/-- The text is `YYYY-MM-DD` in the digits of the date. -/
def Spells (s : String) (d : Date) : Prop :=
  ∃ (y : Nat) (year month day : List Char), s.toList = year ++ '-' :: (month ++ '-' :: day) ∧
    d.year = y ∧ Says year 4 y ∧ Says month 2 d.month ∧ Says day 2 d.day

theorem spells_iff {s : String} {d : Date} : Spells s d ↔ d.IsFourDigit ∧ s = d.text := by
  constructor
  · rintro ⟨y, year, month, day, hs, hy, hyear, hmonth, hday⟩
    have hlt := Decimal.nat?_lt (hyear.nat? (by decide))
    rw [hyear.length_eq] at hlt
    have hfour : d.IsFourDigit := ⟨by omega, by omega⟩
    have htoNat : d.year.toNat = y := by omega
    refine ⟨hfour, String.toList_inj.1 ?_⟩
    rw [hs, text, String.toList_ofList, chars_eq hfour, htoNat, hyear.eq (says_fourDigits hlt),
      hmonth.eq (says_twoDigits (month_lt d)), hday.eq (says_twoDigits (day_lt d))]
    rfl
  · rintro ⟨h, rfl⟩
    have hlow := h.1
    have hhigh := h.2
    refine ⟨d.year.toNat, _, _, _, ?_, by omega, says_fourDigits (by omega),
      says_twoDigits (month_lt d), says_twoDigits (day_lt d)⟩
    rw [text, String.toList_ofList, chars_eq h]
    rfl

theorem ofCanonical?_eq_some_iff {s : String} {d : Date} :
    ofCanonical? s = some d ↔ Spells s d := by
  constructor
  · intro h
    rw [ofCanonical?] at h
    split at h
    · next y₁ y₂ y₃ y₄ m₁ m₂ d₁ d₂ hs =>
      simp only [Option.bind_eq_bind, Option.bind_eq_some_iff] at h
      obtain ⟨y, hyear, m, hmonth, n, hday, hd⟩ := h
      obtain ⟨hy, rfl, rfl⟩ := ofYmd?_eq_some_iff.1 hd
      exact ⟨y, [y₁, y₂, y₃, y₄], [m₁, m₂], [d₁, d₂], hs, hy,
        (says_iff_nat? (by decide)).2 ⟨rfl, hyear⟩, (says_iff_nat? (by decide)).2 ⟨rfl, hmonth⟩,
        (says_iff_nat? (by decide)).2 ⟨rfl, hday⟩⟩
    · cases h
  · rintro ⟨y, year, month, day, hs, hy, hyear, hmonth, hday⟩
    obtain ⟨y₁, y₂, y₃, y₄, rfl⟩ := List.length_eq_four.1 hyear.length_eq
    obtain ⟨m₁, m₂, rfl⟩ := List.length_eq_two.1 hmonth.length_eq
    obtain ⟨d₁, d₂, rfl⟩ := List.length_eq_two.1 hday.length_eq
    simp only [List.cons_append, List.nil_append] at hs
    rw [ofCanonical?, hs]
    simp [hyear.nat?, hmonth.nat?, hday.nat?, ← hy]

end Date

open Date (IsFourDigit)

theorem parseDate_eq_ok_iff {s : String} {d : Date} :
    parseDate s = .ok d ↔ d.IsFourDigit ∧ s = d.text := by
  rw [← Date.spells_iff, ← Date.ofCanonical?_eq_some_iff, parseDate]
  cases Date.ofCanonical? s <;> simp

theorem parseDate_eq_error_iff {s : String} {e : Error} : parseDate s = .error e ↔
    e = .invalidDateFormat s ∧ ∀ d : Date, ¬ (d.IsFourDigit ∧ s = d.text) := by
  simp only [← Date.spells_iff, ← Date.ofCanonical?_eq_some_iff, parseDate]
  cases Date.ofCanonical? s <;> simp [eq_comm]

/-- The one text that is accepted as a date, and the dates of a store, whose order is that of the
bytes of their texts. -/
theorem parseDate_canonical :
    (∀ s d, parseDate s = .ok d ↔ d.IsFourDigit ∧ s = d.text) ∧
    (∀ s e, parseDate s = .error e ↔
      e = .invalidDateFormat s ∧ ∀ d : Date, ¬ (d.IsFourDigit ∧ s = d.text)) ∧
    (∀ s (d : Date), d.IsFourDigit ∧ s = d.text ↔ d.Spells s) ∧
    (∀ d : Date, Date.firstYear ≤ d.year → d.year ≤ Date.lastYear →
      Date.ofLoose? .tight d.text = some d) ∧
    ∀ a b : Date, a.IsFourDigit → b.IsFourDigit →
      (Text.encodeUtf8 a.text < Text.encodeUtf8 b.text ↔ a < b) := by
  refine ⟨fun _ _ => parseDate_eq_ok_iff, fun _ _ => parseDate_eq_error_iff, ?_, ?_, ?_⟩
  · intro s d
    exact Date.spells_iff.symm
  · intro d hfirst hlast
    exact Date.ofLoose?_text_of_le hfirst hlast .tight
  · intro a b ha hb
    rw [Text.encodeUtf8_lt_iff, Date.text_lt_text_iff ha hb]

/-- A leap day is read, no date of another year has such a text, a year of five digits is read back
only by a store, and March follows. -/
theorem parseDate_canonical_leapDay :
    let leap : Date := ⟨2024, 2, 29, by decide⟩
    let march : Date := ⟨2024, 3, 1, by decide⟩
    let far : Date := ⟨12345, 1, 1, by decide⟩
    leap.IsFourDigit ∧ march.IsFourDigit ∧ Date.firstYear ≤ far.year ∧
      far.year ≤ Date.lastYear ∧ leap.text = "2024-02-29" ∧ leap.Spells "2024-02-29" ∧
      parseDate "2024-02-29" = .ok leap ∧
      parseDate "2023-02-29" = .error (.invalidDateFormat "2023-02-29") ∧
      (∀ d : Date, ¬ (d.IsFourDigit ∧ "2023-02-29" = d.text)) ∧
      far.text = "+12345-01-01" ∧
      parseDate "+12345-01-01" = .error (.invalidDateFormat "+12345-01-01") ∧
      Date.ofLoose? .tight far.text = some far ∧
      Text.encodeUtf8 leap.text < Text.encodeUtf8 march.text := by
  intro leap march far
  obtain ⟨hok, herror, hspells, hstore, horder⟩ := parseDate_canonical
  have hleap : leap.IsFourDigit ∧ "2024-02-29" = leap.text := by decide
  have hmarch : march.IsFourDigit := by decide
  have hnone : parseDate "2023-02-29" = .error (.invalidDateFormat "2023-02-29") := rfl
  have hread : Date.ofLoose? .tight far.text = some far := hstore far (by decide) (by decide)
  have hlt : Text.encodeUtf8 leap.text < Text.encodeUtf8 march.text :=
    (horder leap march hleap.1 hmarch).2 (by decide)
  exact ⟨hleap.1, hmarch, by decide, by decide, hleap.2.symm, (hspells _ leap).1 hleap,
    (hok _ _).2 hleap, hnone, ((herror _ _).1 hnone).2, by decide, rfl, hread, hlt⟩

end TimeSeries
