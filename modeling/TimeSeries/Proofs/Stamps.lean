import TimeSeries.Instant
import TimeSeries.Proofs.DateText

/-!
Moments in linear order, a leap second after the second it extends. The stamps of moments in the
years 0 to 9999 compare as text in that order, to the microsecond.
-/
namespace TimeSeries.Instant

open Date (fixedWidth_twoDigits)

/-- One moment is not after another. -/
def notAfter (a b : Instant) : Bool :=
  decide (a.date < b.date) || decide (a.date = b.date) &&
    (decide (a.second < b.second) || decide (a.second = b.second) && decide (a.nano ≤ b.nano))

/-- Two moments are in the same microsecond. -/
def SameMicrosecond (a b : Instant) : Prop :=
  a.date = b.date ∧ a.second = b.second ∧ a.microsecond = b.microsecond

instance (a b : Instant) : Decidable (SameMicrosecond a b) := inferInstanceAs (Decidable (_ ∧ _))

theorem notAfter_iff {a b : Instant} : notAfter a b = true ↔ a.date < b.date ∨ a.date = b.date ∧
    (a.second < b.second ∨ a.second = b.second ∧ a.nano ≤ b.nano) := by
  simp [notAfter]

theorem notAfter_trans (a b c : Instant) (h₁ : notAfter a b = true) (h₂ : notAfter b c = true) :
    notAfter a c = true := by
  rw [notAfter_iff] at *
  rcases h₁ with h₁ | ⟨h₁, hs₁⟩
  · rcases h₂ with h₂ | ⟨h₂, -⟩
    · exact .inl (Std.lt_trans h₁ h₂)
    · exact .inl (h₂ ▸ h₁)
  · rcases h₂ with h₂ | ⟨h₂, hs₂⟩
    · exact .inl (h₁ ▸ h₂)
    · exact .inr ⟨h₁.trans h₂, by omega⟩

theorem notAfter_total (a b : Instant) : (notAfter a b || notAfter b a) = true := by
  have hd : a.date < b.date ∨ a.date = b.date ∨ b.date < a.date := Std.lt_trichotomy _ _
  rw [Bool.or_eq_true, notAfter_iff, notAfter_iff]
  rcases hd with hd | hd | hd
  · exact .inl (.inl hd)
  · simp only [hd, true_and]
    omega
  · exact .inr (.inl hd)

theorem sameMicrosecond_of_notAfter {a b : Instant} (h₁ : notAfter a b = true)
    (h₂ : notAfter b a = true) : SameMicrosecond a b := by
  have hasymm {d d' : Date} (h : d < d') : ¬ d' < d := fun h' => Std.lt_irrefl (Std.lt_trans h h')
  have hirrefl (d : Date) : ¬ d < d := Std.lt_irrefl
  rw [notAfter_iff] at h₁ h₂
  rcases h₁ with h₁ | ⟨hdate, h₁⟩
  · rcases h₂ with h₂ | ⟨hdate, -⟩
    · exact absurd h₂ (hasymm h₁)
    · exact absurd (hdate ▸ h₁) (hirrefl _)
  · rw [hdate] at h₂
    simp only [hirrefl, true_and, false_or] at h₂
    have hsecond : a.second = b.second := by omega
    have hnano : a.nano = b.nano := by omega
    exact ⟨hdate, hsecond, by rw [microsecond, microsecond, hnano]⟩

theorem microsecond_lt (t : Instant) :
    t.microsecond < 1000000 ∨ t.second % 60 = 59 ∧ t.microsecond < 2000000 := by
  rw [microsecond]
  have := t.nano_lt
  omega

theorem fixedWidth_sixDigits : FixedWidth 1000000 6 sixDigits := by
  have h := (fixedWidth_twoDigits.append fixedWidth_twoDigits).append fixedWidth_twoDigits
  have hcode : sixDigits = fun n =>
      (Date.twoDigits (n / 100 / 100) ++ Date.twoDigits (n / 100 % 100)) ++
        Date.twoDigits (n % 100) := by
    funext n
    rw [sixDigits, Nat.div_div_eq_div_mul]
  rw [hcode]
  exact h

theorem toList_stamp (t : Instant) : t.stamp.toList =
    t.date.chars ++ ('T' :: (Date.twoDigits (t.second / 3600) ++
      (':' :: (Date.twoDigits (t.second / 60 % 60) ++
        (':' :: (Date.twoDigits (t.second % 60 + t.microsecond / 1000000) ++
          ('.' :: (sixDigits (t.microsecond % 1000000) ++ ['Z'])))))))) := by
  simp [stamp]

variable {a b : Instant} (ha : a.date.IsFourDigit) (hb : b.date.IsFourDigit)
include ha hb

theorem stamp_lt_stamp_iff : a.stamp < b.stamp ↔ a.date < b.date ∨ a.date = b.date ∧
    (a.second < b.second ∨ a.second = b.second ∧ a.microsecond < b.microsecond) := by
  have hsecond := a.second_lt
  have hsecond' := b.second_lt
  have hmicro := a.microsecond_lt
  have hmicro' := b.microsecond_lt
  rw [String.lt_iff, toList_stamp, toList_stamp, append_lt_append_iff,
    Date.chars_lt_chars_iff ha hb, Date.chars_inj ha hb, List.cons_lt_cons_self,
    fixedWidth_twoDigits.append_lt_iff (by omega) (by omega), List.cons_lt_cons_self,
    fixedWidth_twoDigits.append_lt_iff (by omega) (by omega), List.cons_lt_cons_self,
    fixedWidth_twoDigits.append_lt_iff (by omega) (by omega), List.cons_lt_cons_self,
    fixedWidth_sixDigits.append_lt_iff (by omega) (by omega)]
  · have hirrefl : ¬ ['Z'] < ['Z'] := List.lt_irrefl _
    refine or_congr .rfl (and_congr .rfl ?_)
    simp only [hirrefl, and_false, or_false]
    omega
  · rw [Date.length_chars ha, Date.length_chars hb]

theorem stamp_eq_stamp_iff : a.stamp = b.stamp ↔ SameMicrosecond a b := by
  constructor
  · intro h
    have h₁ := stamp_lt_stamp_iff ha hb
    have h₂ := stamp_lt_stamp_iff hb ha
    rw [h] at h₁ h₂
    have hirrefl : ¬ b.stamp < b.stamp := String.lt_irrefl _
    simp only [hirrefl, false_iff, not_or, not_and, Std.not_lt] at h₁ h₂
    have hdate : a.date = b.date := Std.le_antisymm h₂.1 h₁.1
    have h₁ := h₁.2 hdate
    have h₂ := h₂.2 hdate.symm
    refine ⟨hdate, ?_, ?_⟩ <;> omega
  · rintro ⟨hdate, hsecond, hmicro⟩
    rw [stamp, stamp, hdate, hsecond, hmicro]

/-- Stamps compare as their moments do, unless they are the same. -/
theorem stamp_le_stamp_iff (h : ¬ SameMicrosecond a b) : a.stamp ≤ b.stamp ↔ notAfter a b = true := by
  have hne : ¬ (a.date = b.date ∧ a.second = b.second ∧ a.microsecond = b.microsecond) := h
  have hmicro : a.microsecond < b.microsecond → a.nano ≤ b.nano := by
    simp only [microsecond]
    omega
  have hmicro' : a.nano ≤ b.nano → a.microsecond ≤ b.microsecond := by
    simp only [microsecond]
    omega
  rw [← String.not_lt, stamp_lt_stamp_iff hb ha, notAfter_iff]
  have hd : a.date < b.date ∨ a.date = b.date ∨ b.date < a.date := Std.lt_trichotomy _ _
  rcases hd with hd | hd | hd
  · have hne : b.date ≠ a.date := fun heq => Std.lt_irrefl (heq ▸ hd)
    have hnot : ¬ b.date < a.date := fun hlt => Std.lt_irrefl (Std.lt_trans hd hlt)
    simp [hd, hne, hnot]
  · simp only [hd, Std.lt_irrefl, true_and, false_or] at hne ⊢
    omega
  · have hne : a.date ≠ b.date := fun heq => Std.lt_irrefl (heq ▸ hd)
    have hnot : ¬ a.date < b.date := fun hlt => Std.lt_irrefl (Std.lt_trans hd hlt)
    simp [hd, hne, hnot]

omit ha hb

/-- Earlier, and in another microsecond. A moment that is earlier by a microsecond is. -/
def Precedes (a b : Instant) : Prop := notAfter a b = true ∧ ¬ SameMicrosecond a b

instance (a b : Instant) : Decidable (Precedes a b) := inferInstanceAs (Decidable (_ ∧ _))

include hb in
/-- An earlier moment has a smaller stamp, whatever its year. -/
theorem stamp_lt_stamp_of_precedes (h : Precedes a b) : a.stamp < b.stamp := by
  obtain ⟨hnotAfter, hmicro⟩ := h
  have hyear : a.date.year ≤ 9999 := by
    have hdate : a.date ≤ b.date := by
      rcases notAfter_iff.1 hnotAfter with hlt | ⟨heq, -⟩
      · exact Std.le_of_lt hlt
      · exact heq ▸ Std.le_refl _
    have hnot : ¬ b.date < a.date := Std.not_lt.2 hdate
    rw [Date.lt_iff_lex] at hnot
    have := hb.2
    omega
  by_cases ha : 0 ≤ a.date.year
  · have ha : a.date.IsFourDigit := ⟨ha, hyear⟩
    have hle := (stamp_le_stamp_iff ha hb hmicro).2 hnotAfter
    have hne : a.stamp ≠ b.stamp := fun heq => hmicro ((stamp_eq_stamp_iff ha hb).1 heq)
    exact Std.lt_of_le_of_ne hle hne
  · obtain ⟨cs, hcs⟩ := Date.exists_chars_of_negative (d := a.date) (by omega)
    obtain ⟨c, cs', hcs', -, hdash⟩ := Date.exists_chars_of_isFourDigit hb
    rw [String.lt_iff, toList_stamp, toList_stamp, hcs, hcs']
    exact List.cons_lt_cons_iff.2 (.inl hdash)

/-- A stamp is longer than the text of a date. -/
theorem stamp_ne_text {t : Instant} {d : Date} (hd : d.IsFourDigit) : t.stamp ≠ d.text := by
  intro h
  have hlength := congrArg (fun s : String => s.toList.length) h
  have hdate : d.text.toList.length = 10 := by
    rw [Date.text, String.toList_ofList, Date.length_chars hd]
  simp [hdate, toList_stamp, Date.twoDigits, sixDigits] at hlength

end TimeSeries.Instant
