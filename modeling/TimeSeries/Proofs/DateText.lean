import TimeSeries.Date.Text
import TimeSeries.Proofs.Digits

/-!
The texts of dates in the years 0 to 9999 compare as the dates do, and a text of such a date is read
as the date.
-/
namespace TimeSeries

namespace Date

theorem fixedWidth_twoDigits : FixedWidth 100 2 twoDigits := FixedWidth.oneDigit.append .oneDigit

theorem fixedWidth_fourDigits : FixedWidth 10000 4 fourDigits :=
  fixedWidth_twoDigits.append fixedWidth_twoDigits

/-- The year is written in four digits. -/
def IsFourDigit (d : Date) : Prop := 0 ≤ d.year ∧ d.year ≤ 9999

instance (d : Date) : Decidable d.IsFourDigit := inferInstanceAs (Decidable (_ ∧ _))

theorem month_lt (d : Date) : d.month < 100 := by
  have := d.isDay.2.1
  omega

theorem day_lt (d : Date) : d.day < 100 := by
  have := d.isDay.2.2.2
  have := Calendar.daysInMonth_le d.year d.month
  omega

theorem chars_eq {d : Date} (h : d.IsFourDigit) : d.chars =
    fourDigits d.year.toNat ++ ('-' :: twoDigits d.month ++ ('-' :: twoDigits d.day)) := by
  have h : 0 ≤ d.year ∧ d.year ≤ 9999 := h
  rw [chars, yearText, if_pos h]
  simp

theorem chars_lt_chars_iff {a b : Date} (ha : a.IsFourDigit) (hb : b.IsFourDigit) :
    a.chars < b.chars ↔ a < b := by
  have hya := ha.1
  have hya' := ha.2
  have hyb := hb.1
  have hyb' := hb.2
  rw [chars_eq ha, chars_eq hb,
    fixedWidth_fourDigits.append_lt_iff (by omega) (by omega), List.cons_append, List.cons_append,
    List.cons_lt_cons_self, fixedWidth_twoDigits.append_lt_iff (month_lt a) (month_lt b),
    List.cons_lt_cons_self, fixedWidth_twoDigits.lt_iff _ (day_lt a) _ (day_lt b), lt_iff_lex]
  omega

theorem length_chars {d : Date} (h : d.IsFourDigit) : d.chars.length = 10 := by
  rw [chars_eq h]
  rfl

theorem chars_inj {a b : Date} (ha : a.IsFourDigit) (hb : b.IsFourDigit) :
    a.chars = b.chars ↔ a = b := by
  constructor
  · intro h
    have h₁ := chars_lt_chars_iff ha hb
    have h₂ := chars_lt_chars_iff hb ha
    rw [h] at h₁ h₂
    have hirrefl : ¬ b.chars < b.chars := List.lt_irrefl _
    simp only [hirrefl, false_iff, Std.not_lt] at h₁ h₂
    exact Std.le_antisymm h₂ h₁
  · rintro rfl
    rfl

theorem text_lt_text_iff {a b : Date} (ha : a.IsFourDigit) (hb : b.IsFourDigit) :
    a.text < b.text ↔ a < b := by
  rw [String.lt_iff, text, text, String.toList_ofList, String.toList_ofList,
    chars_lt_chars_iff ha hb]

theorem digitChar_of_lt (n : Nat) (h : n < 10) :
    (Nat.digitChar n).isDigit = true ∧ '-' < Nat.digitChar n ∧ (Nat.digitChar n).toNat = 48 + n := by
  revert n
  decide

theorem isDigit_of_mem_twoDigits {n : Nat} (h : n < 100) {c : Char} (hc : c ∈ twoDigits n) :
    c.isDigit = true := by
  rw [twoDigits, List.mem_cons, List.mem_singleton] at hc
  rcases hc with rfl | rfl
  · exact (digitChar_of_lt _ (by omega)).1
  · exact (digitChar_of_lt _ (by omega)).1

/-- The text of a date consists of digits and signs. -/
theorem mem_chars {d : Date} {c : Char} (h : c ∈ d.chars) : c.isDigit = true ∨ c = '-' ∨ c = '+' := by
  have hyear (hc : c ∈ yearText d.year) : c.isDigit = true ∨ c = '-' ∨ c = '+' := by
    unfold yearText at hc
    split at hc
    · rcases List.mem_append.1 hc with hc | hc
      · exact .inl (isDigit_of_mem_twoDigits (by omega) hc)
      · exact .inl (isDigit_of_mem_twoDigits (by omega) hc)
    · rcases List.mem_cons.1 hc with rfl | hc
      · split <;> simp
      · rw [Decimal.padded, List.leftpad, List.mem_append] at hc
        rcases hc with hc | hc
        · rw [List.eq_of_mem_replicate hc]
          exact .inl rfl
        · exact .inl (Decimal.isDigit_of_mem_ofNat hc)
  simp only [chars, List.mem_append, List.mem_cons] at h
  rcases h with (h | rfl | h) | rfl | h
  · exact hyear h
  · exact .inr (.inl rfl)
  · exact .inl (isDigit_of_mem_twoDigits d.month_lt h)
  · exact .inr (.inl rfl)
  · exact .inl (isDigit_of_mem_twoDigits d.day_lt h)

theorem exists_chars_of_isFourDigit {d : Date} (h : d.IsFourDigit) :
    ∃ c cs, d.chars = c :: cs ∧ c.isDigit = true ∧ '-' < c := by
  have := h.1
  have := h.2
  obtain ⟨hdigit, hdash, -⟩ := digitChar_of_lt (d.year.toNat / 100 / 10) (by omega)
  rw [chars_eq h, fourDigits, twoDigits]
  exact ⟨_, _, rfl, hdigit, hdash⟩

theorem exists_chars_of_negative {d : Date} (h : d.year < 0) : ∃ cs, d.chars = '-' :: cs := by
  have hnot : ¬ (0 ≤ d.year ∧ d.year ≤ 9999) := by omega
  rw [chars, yearText, if_neg hnot, if_pos h]
  exact ⟨_, rfl⟩

theorem exists_chars_of_late {d : Date} (h : 9999 < d.year) : ∃ cs, d.chars = '+' :: cs := by
  have hnot : ¬ (0 ≤ d.year ∧ d.year ≤ 9999) := by omega
  have hsign : ¬ d.year < 0 := by omega
  rw [chars, yearText, if_neg hnot, if_neg hsign]
  exact ⟨_, rfl⟩

/-- Years before the year 0 start with a dash, which comes before all digits. -/
theorem text_lt_of_negative {a b : Date} (ha : a.year < 0) (hb : b.IsFourDigit) :
    a.text < b.text := by
  obtain ⟨cs, hcs⟩ := exists_chars_of_negative ha
  obtain ⟨c, cs', hcs', -, hdash⟩ := exists_chars_of_isFourDigit hb
  rw [String.lt_iff, text, text, String.toList_ofList, String.toList_ofList, hcs, hcs']
  exact List.cons_lt_cons_iff.2 (.inl hdash)

/-- Years after the year 9999 start with a plus sign, which comes before all digits as well. -/
theorem text_lt_of_late {a b : Date} (ha : 9999 < a.year) (hb : b.IsFourDigit) :
    a.text < b.text := by
  obtain ⟨cs, hcs⟩ := exists_chars_of_late ha
  obtain ⟨c, cs', hcs', -, hdash⟩ := exists_chars_of_isFourDigit hb
  have hplus : '+' < c := Char.lt_trans (by decide) hdash
  rw [String.lt_iff, text, text, String.toList_ofList, String.toList_ofList, hcs, hcs']
  exact List.cons_lt_cons_iff.2 (.inl hplus)

section Bounded
variable {a b : Date} (ha : a.IsFourDigit) (hb : b.year ≤ 9999)
include ha hb

theorem text_lt_bounded_iff : a.text < b.text ↔ a < b := by
  by_cases h : 0 ≤ b.year
  · exact text_lt_text_iff ha ⟨h, hb⟩
  · have hlt : b.year < 0 := by omega
    have hba : b < a := by
      have := ha.1
      rw [lt_iff_lex]
      omega
    constructor
    · intro hab
      exact absurd (String.lt_trans hab (text_lt_of_negative hlt ha)) (String.lt_irrefl _)
    · intro hab
      exact absurd (Std.lt_trans hab hba) Std.lt_irrefl

theorem bounded_lt_text_iff : b.text < a.text ↔ b < a := by
  by_cases h : 0 ≤ b.year
  · exact text_lt_text_iff ⟨h, hb⟩ ha
  · have hlt : b.year < 0 := by omega
    have hba : b < a := by
      have := ha.1
      rw [lt_iff_lex]
      omega
    exact iff_of_true (text_lt_of_negative hlt ha) hba

/-- A date in four digits compares as text with every date up to the year 9999 as it does in the
calendar. -/
theorem text_le_bounded_iff : a.text ≤ b.text ↔ a ≤ b := by
  rw [← String.not_lt, bounded_lt_text_iff ha hb, Std.not_lt]

theorem bounded_le_text_iff : b.text ≤ a.text ↔ b ≤ a := by
  rw [← String.not_lt, text_lt_bounded_iff ha hb, Std.not_lt]

theorem text_eq_bounded_iff : a.text = b.text ↔ a = b := by
  constructor
  · intro h
    apply Std.le_antisymm
    · exact (text_le_bounded_iff ha hb).1 (h ▸ String.le_refl _)
    · exact (bounded_le_text_iff ha hb).1 (h ▸ String.le_refl _)
  · rintro rfl
    rfl

end Bounded

/-- The text of a date in four digits is that of no other date. -/
theorem text_eq_text_iff {a b : Date} (ha : a.IsFourDigit) : a.text = b.text ↔ a = b := by
  by_cases hb : b.year ≤ 9999
  · exact text_eq_bounded_iff ha hb
  · have hb : 9999 < b.year := by omega
    constructor
    · intro h
      have hlt := text_lt_of_late hb ha
      rw [h] at hlt
      exact absurd hlt (String.lt_irrefl _)
    · rintro rfl
      rfl

/-! ## Reading dates -/

/-- Digits of a given width that say a number. -/
structure Says (cs : List Char) (width n : Nat) : Prop where
  length_eq : cs.length = width
  digits : ∀ c ∈ cs, c.isDigit = true
  value_eq : ∀ start, Nat.ofDigitChars 10 cs start = start * 10 ^ width + n

theorem says_twoDigits {n : Nat} (h : n < 100) : Says (twoDigits n) 2 n := by
  have h₁ : n / 10 < 10 := by omega
  have h₂ : n % 10 < 10 := by omega
  refine ⟨rfl, fun _ => isDigit_of_mem_twoDigits h, fun start => ?_⟩
  rw [twoDigits, Nat.ofDigitChars_cons_digitChar_of_lt_ten h₁,
    Nat.ofDigitChars_cons_digitChar_of_lt_ten h₂, Nat.ofDigitChars_nil]
  omega

theorem Says.append {cs cs' : List Char} {width width' m n : Nat} (h : Says cs width m)
    (h' : Says cs' width' n) : Says (cs ++ cs') (width + width') (m * 10 ^ width' + n) := by
  refine ⟨?_, ?_, fun start => ?_⟩
  · rw [List.length_append, h.length_eq, h'.length_eq]
  · intro c hc
    rcases List.mem_append.1 hc with hc | hc
    · exact h.digits c hc
    · exact h'.digits c hc
  · rw [Nat.ofDigitChars_append, h.value_eq, h'.value_eq, Nat.pow_add, Nat.add_mul]
    ac_rfl

theorem says_fourDigits {n : Nat} (h : n < 10000) : Says (fourDigits n) 4 n := by
  have := (says_twoDigits (n := n / 100) (by omega)).append (says_twoDigits (n := n % 100) (by omega))
  have hn : n / 100 * 10 ^ 2 + n % 100 = n := by omega
  rwa [hn] at this

theorem Says.nat? {cs : List Char} {width n : Nat} (h : Says cs width n) (hw : width ≠ 0) :
    Decimal.nat? cs = some n := by
  have hne : cs ≠ [] := by
    rintro rfl
    exact hw h.length_eq.symm
  rw [Decimal.nat?, if_pos ⟨hne, List.all_eq_true.2 h.digits⟩, h.value_eq]
  simp

theorem Says.scanNumber {cs : List Char} {width n : Nat} (h : Says cs width n) (hw : width ≠ 0)
    (rest : List Char) : scanNumber width (cs ++ rest) = some (n, rest) := by
  have htake : ((cs ++ rest).takeWhile Char.isDigit).take width = cs := by
    rw [List.takeWhile_append_of_pos h.digits, List.take_left' h.length_eq]
  rw [Date.scanNumber, htake, h.nat? hw]
  simp

theorem isBlank_of_isDigit {c : Char} (h : c.isDigit = true) : Text.isBlank c = false := by
  have hc : 48 ≤ c.toNat ∧ c.toNat ≤ 57 := Char.isDigit_iff_toNat.1 h
  simp only [Text.isBlank, Bool.or_eq_false_iff, Bool.and_eq_false_iff, decide_eq_false_iff_not,
    beq_eq_false_iff_ne]
  omega

theorem Says.skipBlanks {cs : List Char} {width n : Nat} (h : Says cs width n) (hw : width ≠ 0)
    (rest : List Char) : Text.skipBlanks (cs ++ rest) = cs ++ rest := by
  cases cs with
  | nil => exact absurd h.length_eq.symm hw
  | cons c cs =>
    exact Text.skipBlanks_cons_of_not_blank (isBlank_of_isDigit (h.digits c List.mem_cons_self)) _

theorem Says.scanYear {cs : List Char} {n : Nat} (h : Says cs 4 n) (rest : List Char) :
    scanYear (cs ++ rest) = some (Int.ofNat n, rest) := by
  have hscan := h.scanNumber (by decide) rest
  rw [Date.scanYear, h.skipBlanks (by decide)]
  cases cs with
  | nil => cases h.length_eq
  | cons c cs =>
    have hc := h.digits c List.mem_cons_self
    rw [List.cons_append] at *
    split
    · next heq =>
      cases heq
      exact absurd hc (by decide)
    · next heq =>
      cases heq
      exact absurd hc (by decide)
    · rw [hscan]
      rfl

theorem scanDash_dash (spacing : Spacing) (rest : List Char) :
    scanDash spacing ('-' :: rest) = some rest := by
  have hskip : spacing.skip ('-' :: rest) = '-' :: rest := by
    cases spacing with
    | tight => rfl
    | wide => exact Text.skipBlanks_cons_of_not_blank (by decide) rest
  rw [scanDash, hskip]
  rfl

/-- Digits are read up to the first character that is none, if the limit lets them. -/
theorem Says.scanNumber_of_le {cs : List Char} {width n limit : Nat} (h : Says cs width n)
    (hw : width ≠ 0) (hlimit : width ≤ limit) {c : Char} (hc : c.isDigit = false)
    (rest : List Char) : Date.scanNumber limit (cs ++ c :: rest) = some (n, c :: rest) := by
  have htake : ((cs ++ c :: rest).takeWhile Char.isDigit).take limit = cs := by
    rw [List.takeWhile_append_of_pos h.digits, List.takeWhile_cons_of_neg (by simp [hc]),
      List.append_nil, List.take_of_length_le (by rw [h.length_eq]; exact hlimit)]
  rw [Date.scanNumber, htake, h.nat? hw]
  simp

/-- Zeros on the left do not count. -/
theorem says_padded (width n : Nat) :
    Says (Decimal.padded width n) (Decimal.padded width n).length n := by
  rw [Decimal.padded, List.leftpad]
  refine ⟨rfl, fun c hc => ?_, fun start => ?_⟩
  · rcases List.mem_append.1 hc with hc | hc
    · rw [List.eq_of_mem_replicate hc]
      rfl
    · exact Decimal.isDigit_of_mem_ofNat hc
  · have hn : Nat.ofDigitChars 10 (Decimal.ofNat n) 0 = n :=
      Nat.ofDigitChars_toDigits (by decide) (by decide)
    rw [Nat.ofDigitChars_append, Nat.ofDigitChars_replicate_zero,
      Nat.ofDigitChars_eq_ofDigitChars_zero, hn, List.length_append, List.length_replicate,
      Nat.pow_add]
    ac_rfl

/-- A year is read to its end, with or without a sign. -/
theorem scanYear_yearText (year : Int) (rest : List Char) :
    Date.scanYear (yearText year ++ '-' :: rest) = some (year, '-' :: rest) := by
  rw [yearText]
  split
  · next h =>
    rw [(says_fourDigits (n := year.toNat) (by omega)).scanYear, Int.ofNat_eq_natCast,
      Int.toNat_of_nonneg h.1]
  · next h =>
    have hne : (Decimal.padded 4 year.natAbs).length ≠ 0 := by
      simp [Decimal.padded, Decimal.ofNat_ne_nil]
    have hscan : Date.scanNumber (Decimal.padded 4 year.natAbs ++ '-' :: rest).length
        (Decimal.padded 4 year.natAbs ++ '-' :: rest) = some (year.natAbs, '-' :: rest) :=
      (says_padded 4 year.natAbs).scanNumber_of_le hne (by simp) (by decide) rest
    split
    · next hneg =>
      rw [List.cons_append, Date.scanYear, Text.skipBlanks_cons_of_not_blank (by decide)]
      simp only [hscan, Option.map_some, Option.some.injEq, Prod.mk.injEq, and_true]
      omega
    · next hnot =>
      rw [List.cons_append, Date.scanYear, Text.skipBlanks_cons_of_not_blank (by decide)]
      simp only [hscan, Option.map_some, Option.some.injEq, Prod.mk.injEq, and_true,
        Int.ofNat_eq_natCast]
      omega

/-- The text of a date is read as the date, however spacious the reading is. -/
theorem ofLoose?_text_of_le {d : Date} (hfirst : firstYear ≤ d.year) (hlast : d.year ≤ lastYear)
    (spacing : Spacing) : ofLoose? spacing d.text = some d := by
  have hmonth := says_twoDigits (month_lt d)
  have hday := says_twoDigits (day_lt d)
  have hend : spacing.skip [] = [] := by cases spacing <;> rfl
  have hday' := hday.scanNumber (by decide) []
  rw [List.append_nil] at hday'
  have hblank := hday.skipBlanks (by decide) []
  rw [List.append_nil] at hblank
  have hchars : d.chars =
      yearText d.year ++ '-' :: (twoDigits d.month ++ '-' :: twoDigits d.day) := by
    simp [chars]
  rw [ofLoose?, text, String.toList_ofList, hchars, scanYear_yearText]
  simp only [Option.bind_eq_bind, Option.bind_some, scanDash_dash, hmonth.skipBlanks (by decide),
    hmonth.scanNumber (by decide), hblank, hday', hend, hfirst, hlast, and_self, if_true,
    ofYmd?_self]

theorem ofLoose?_text {d : Date} (h : d.IsFourDigit) (spacing : Spacing) :
    ofLoose? spacing d.text = some d := by
  have hlow := h.1
  have hhigh := h.2
  apply ofLoose?_text_of_le
  · rw [firstYear]
    omega
  · rw [lastYear]
    omega

end Date
end TimeSeries
