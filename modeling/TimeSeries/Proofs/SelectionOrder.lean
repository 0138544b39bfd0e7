import TimeSeries.Proofs.Selection

/-!
The order of a table and a selection from it. Where no two samples share both the date and the moment
of recording, every selection finds the same in whatever order the samples come up.
-/
namespace TimeSeries

/-- Sorting forgets the order of elements between which the comparison can choose. -/
theorem Sorted.sort_eq_of_perm {α : Type} {le : α → α → Bool}
    (trans : ∀ a b c, le a b = true → le b c = true → le a c = true)
    (total : ∀ a b, (le a b || le b a) = true) {l l' : List α} (hp : l.Perm l')
    (hanti : ∀ a ∈ l, ∀ b ∈ l, le a b = true → le b a = true → a = b) : sort le l = sort le l' := by
  apply List.Perm.eq_of_pairwise _ (pairwise_sort trans total l) (pairwise_sort trans total l')
  · exact (perm_sort le l).trans (hp.trans (perm_sort le l').symm)
  · intro a b ha hb
    rw [mem_sort] at ha hb
    exact hanti a ha b (hp.mem_iff.2 hb)

namespace Entry

/-- The first of a selection is one of a set. -/
theorem first?_congr {before : Entry → Entry → Bool}
    (htrans : ∀ a b c, before a b = true → before b c = true → before a c = true)
    (htotal : ∀ a b, (before a b || before b a) = true) {l l' : List Entry}
    (hmem : ∀ e, e ∈ l ↔ e ∈ l')
    (hanti : ∀ a ∈ l, ∀ b ∈ l, before a b = true → before b a = true → a = b) :
    first? before l = first? before l' := by
  cases h : first? before l with
  | none =>
    rw [first?_eq_none_iff] at h
    subst h
    rw [eq_comm, first?_eq_none_iff, List.eq_nil_iff_forall_not_mem]
    intro e he
    exact List.not_mem_nil ((hmem e).2 he)
  | some e =>
    obtain ⟨he, hfirst⟩ := first?_spec htrans htotal h
    cases h' : first? before l' with
    | none =>
      rw [first?_eq_none_iff] at h'
      subst h'
      cases (hmem e).1 he
    | some e' =>
      obtain ⟨he', hfirst'⟩ := first?_spec htrans htotal h'
      have he' := (hmem e').2 he'
      rw [hanti e he e' he' (hfirst e' he') (hfirst' e ((hmem e).1 he))]

section Samples
variable {rows : List Recorded} {c : Columns} {a b : Entry} (hdates : ∀ r ∈ rows, r.date.IsFourDigit)
  (hdistinct : Recorded.chronology.Distinct rows)

include hdistinct in
/-- A comparison of entries that is one of dates and moments tells samples apart. -/
theorem eq_of_order (lookup : Lookup) {before : Entry → Entry → Bool}
    (hbefore : ∀ r ∈ rows, ∀ r' ∈ rows, before (ofRecorded r) (ofRecorded r') = true ↔
      Recorded.chronology.order lookup r' r = true)
    (ha : a ∈ rows.map ofRecorded) (hb : b ∈ rows.map ofRecorded) (hab : before a b = true)
    (hba : before b a = true) : a = b := by
  obtain ⟨r, hr, rfl⟩ := List.mem_map.1 ha
  obtain ⟨r', hr', rfl⟩ := List.mem_map.1 hb
  rw [hbefore r hr r' hr'] at hab
  rw [hbefore r' hr' r hr] at hba
  rw [hdistinct.eq_of_ties hr' hr (Chronology.ties_of_order hab hba)]

include hdates hdistinct

theorem eq_of_ascending (hbinary : c.moments.collation = .binary) (ha : a ∈ rows.map ofRecorded)
    (hb : b ∈ rows.map ofRecorded) (hab : ascending c a b = true) (hba : ascending c b a = true) :
    a = b := by
  apply eq_of_order hdistinct .base _ ha hb hab hba
  intro r hr r' hr'
  rw [ascending_ofRecorded (hdates r hr) (hdates r' hr'), hbinary]
  rfl

theorem eq_of_descending (hbinary : c.moments.collation = .binary) (ha : a ∈ rows.map ofRecorded)
    (hb : b ∈ rows.map ofRecorded) (hab : descending c a b = true)
    (hba : descending c b a = true) : a = b := by
  apply eq_of_order hdistinct .latest _ ha hb hab hba
  intro r hr r' hr'
  rw [descending_ofRecorded (hdates r hr) (hdates r' hr'), hbinary]
  rfl

/-- On one date the moments alone tell samples apart. -/
theorem eq_of_newest (hbinary : c.moments.collation = .binary) {day : Date}
    (ha : a ∈ rows.map ofRecorded) (hb : b ∈ rows.map ofRecorded) (hday : isOn c day a = true)
    (hday' : isOn c day b = true) (hab : newest c a b = true) (hba : newest c b a = true) :
    a = b := by
  obtain ⟨r, hr, rfl⟩ := List.mem_map.1 ha
  obtain ⟨r', hr', rfl⟩ := List.mem_map.1 hb
  rw [isOn_ofRecorded (hdates r hr), beq_iff_eq] at hday
  rw [isOn_ofRecorded (hdates r' hr'), beq_iff_eq] at hday'
  rw [newest, Column.le, Column.key_of_binary hbinary, Column.key_of_binary hbinary] at hab hba
  rw [hdistinct.eq_of_ties hr hr' ⟨hday.trans hday'.symm, hba, hab⟩]

/-- Selections from samples that are told apart do not see in which order these come up. -/
theorem select_perm {entries entries' : List Entry} (hentries : entries.Perm (rows.map ofRecorded))
    (hperm : entries.Perm entries') (hbinary : c.moments.collation = .binary) (lookup : Lookup) :
    select c lookup entries = select c lookup entries' := by
  have hfilter (p : Entry → Bool) (e : Entry) : e ∈ entries.filter p ↔ e ∈ entries'.filter p :=
    (hperm.filter p).mem_iff
  have hrow {p : Entry → Bool} {e : Entry} (he : e ∈ entries.filter p) :
      e ∈ rows.map ofRecorded := hentries.mem_iff.1 (List.mem_filter.1 he).1
  cases lookup with
  | base =>
    simp only [select]
    rw [first?_congr (ascending_trans c) (ascending_total c) (hfilter _)]
    intro a ha b hb
    exact eq_of_ascending hdates hdistinct hbinary (hrow ha) (hrow hb)
  | latest =>
    simp only [select]
    rw [first?_congr (descending_trans c) (descending_total c) fun _ => hperm.mem_iff]
    intro a ha b hb
    exact eq_of_descending hdates hdistinct hbinary (hentries.mem_iff.1 ha)
      (hentries.mem_iff.1 hb)
  | exact day =>
    simp only [select]
    rw [first?_congr (newest_trans c) (newest_total c) (hfilter _)]
    intro a ha b hb
    exact eq_of_newest hdates hdistinct hbinary (hrow ha) (hrow hb) (List.mem_filter.1 ha).2
      (List.mem_filter.1 hb).2
  | onOrBefore day =>
    simp only [select]
    rw [first?_congr (descending_trans c) (descending_total c) (hfilter _)]
    intro a ha b hb
    exact eq_of_descending hdates hdistinct hbinary (hrow ha) (hrow hb)
  | range first last =>
    simp only [select]
    apply Sorted.sort_eq_of_perm (ascending_trans c) (ascending_total c) (hperm.filter _)
    intro a ha b hb
    exact eq_of_ascending hdates hdistinct hbinary (hrow ha) (hrow hb)

end Samples
end Entry
end TimeSeries
