import Mathlib.Data.List.TakeWhile
import TimeSeries.Database.Select
import TimeSeries.Proofs.DateText
import TimeSeries.Proofs.Lookups
import TimeSeries.Proofs.Traversal

/-!
Selections from a table of stored samples answer lookups as documented. The dates of the samples lie
in the years 0 to 9999, where texts are in the order of the dates whatever they are collated in, and
moments count in the collating sequence of their column. A lookup that ends later finds nothing.
-/
namespace TimeSeries

/-- The dates that a lookup compares with. -/
def Lookup.dates : Lookup → List Date
  | .base | .latest => []
  | .exact date | .onOrBefore date => [date]
  | .range first last => [first, last]

/-- The last day that a lookup asks for. -/
def Lookup.last? : Lookup → Option Date
  | .base | .latest => none
  | .exact date | .onOrBefore date => some date
  | .range _ last => some last

/-- The lookup ends after the year 9999, where texts come before those of all other years. -/
def Lookup.isLate (lookup : Lookup) : Bool := lookup.last?.any fun day => decide (9999 < day.year)

theorem Lookup.isLate_of_dates {lookup : Lookup} (h : ∀ day ∈ lookup.dates, day.year ≤ 9999) :
    lookup.isLate = false := by
  have hlast : ∀ day ∈ lookup.last?, day ∈ lookup.dates := by
    cases lookup <;> simp [last?, dates]
  rw [isLate, Option.any_eq_false]
  intro day hday
  have := h day (hlast day hday)
  simpa using this

/-- A column that keeps the integer zero tells it from all other integers. -/
theorem Column.isNonzero_integer {c : Column} (h : c.store (.integer 0) = .integer 0) (v : Value) :
    c.isNonzero (.integer v) = (v != 0) := by
  have hsame : c.same (.integer v) (.integer 0) = (v == 0) := by
    rw [Bool.eq_iff_iff, beq_iff_eq]
    simp only [same, key, Cell.same, Cell.le, Bool.and_eq_true, decide_eq_true_eq]
    constructor
    · rintro ⟨⟨-, h₁⟩, h₂⟩
      exact Int64.le_antisymm h₁ h₂
    · rintro rfl
      simp
  rw [isNonzero, h, hsame]
  rfl

/-! ## Collating sequences -/

namespace Collation

theorem plain_of_digit {c : Char} (h : c.isDigit = true ∨ c = '-' ∨ c = '+') :
    c ≠ '\x00' ∧ c ≠ ' ' ∧ c.toLower = c := by
  rcases h with h | rfl | rfl
  · have hc : 48 ≤ c.toNat ∧ c.toNat ≤ 57 := Char.isDigit_iff_toNat.1 h
    refine ⟨?_, ?_, dif_neg ?_⟩
    · rintro rfl
      cases h
    · rintro rfl
      cases h
    · rintro ⟨hletter, -⟩
      rw [ge_iff_le, UInt32.le_iff_toNat_le] at hletter
      have : 65 ≤ c.toNat := hletter
      omega
  · decide
  · decide

/-- Digits and signs are the same in every collating sequence. -/
theorem key_of_digits (k : Collation) {cs : List Char}
    (h : ∀ c ∈ cs, c.isDigit = true ∨ c = '-' ∨ c = '+') :
    k.key (String.ofList cs) = String.ofList cs := by
  cases k with
  | binary => rfl
  | nocase =>
    have htake : cs.takeWhile (· != '\x00') = cs := by
      rw [List.takeWhile_eq_self_iff]
      intro c hc
      simpa using (plain_of_digit (h c hc)).1
    have hdrop : cs.dropWhile (· != '\x00') = [] := by
      rw [List.dropWhile_eq_nil_iff]
      intro c hc
      simpa using (plain_of_digit (h c hc)).1
    have hlower : cs.map Char.toLower = cs := by
      rw [List.map_congr_left fun c hc => (plain_of_digit (h c hc)).2.2]
      exact List.map_id' cs
    simp [key, htake, hdrop, hlower]
  | rtrim =>
    have hdrop : cs.reverse.dropWhile (· == ' ') = cs.reverse := by
      cases hcs : cs.reverse with
      | nil => rfl
      | cons c rest =>
        have hc : c ∈ cs := List.mem_reverse.1 (hcs ▸ List.mem_cons_self)
        simp [(plain_of_digit (h c hc)).2.1]
    simp [key, hdrop]

/-- So the text of a date is compared as it is. -/
theorem key_dateText (k : Collation) (d : Date) : k.key d.text = d.text :=
  k.key_of_digits fun _ => Date.mem_chars

end Collation

/-- The chronology of stored samples with moments of recording that compare in a collating
sequence. -/
def Recorded.collated (k : Collation) : Chronology Recorded where
  sample := (·.toObservation)
  notAfter a b := decide (k.key a.createdAt ≤ k.key b.createdAt)
  trans a b c h₁ h₂ := by
    rw [decide_eq_true_eq] at *
    exact String.le_trans h₁ h₂
  total a b := by simpa using String.le_total (k.key a.createdAt) (k.key b.createdAt)

@[simp] theorem Recorded.date_collated (k : Collation) (r : Recorded) :
    (collated k).date r = r.date := rfl

@[simp] theorem Recorded.notAfter_collated (k : Collation) (a b : Recorded) :
    (collated k).notAfter a b = decide (k.key a.createdAt ≤ k.key b.createdAt) := rfl

namespace Entry

/-- By one comparison, and where it sees no difference by another one. -/
def lexical {α : Type} (le le' : α → α → Bool) (a b : α) : Bool := !le b a || le a b && le' a b

section Lexical
variable {α : Type} {le le' : α → α → Bool}

theorem lexical_trans (htrans : ∀ a b c, le a b = true → le b c = true → le a c = true)
    (htrans' : ∀ a b c, le' a b = true → le' b c = true → le' a c = true)
    (htotal : ∀ a b, (le a b || le b a) = true) (a b c : α) (h₁ : lexical le le' a b = true)
    (h₂ : lexical le le' b c = true) : lexical le le' a c = true := by
  have hle {a b : α} (h : lexical le le' a b = true) : le a b = true := by
    have := htotal a b
    simp only [lexical] at h
    grind
  have hac : le a c = true := htrans a b c (hle h₁) (hle h₂)
  rw [lexical, hac, Bool.true_and]
  cases hca : le c a with
  | false => rfl
  | true =>
    have hba : le b a = true := htrans b c a (hle h₂) hca
    have hcb : le c b = true := htrans c a b hca (hle h₁)
    simp only [lexical, hba, hcb, Bool.not_true, Bool.false_or, Bool.and_eq_true] at h₁ h₂
    exact htrans' a b c h₁.2 h₂.2

theorem lexical_total (htotal : ∀ a b, (le a b || le b a) = true)
    (htotal' : ∀ a b, (le' a b || le' b a) = true) (a b : α) :
    (lexical le le' a b || lexical le le' b a) = true := by
  have h := htotal a b
  have h' := htotal' a b
  simp only [lexical]
  grind

end Lexical

variable (c : Columns)

theorem newest_trans (x y z : Entry) (h₁ : newest c x y = true) (h₂ : newest c y z = true) :
    newest c x z = true := c.moments.le_trans _ _ _ h₂ h₁

theorem newest_total (x y : Entry) : (newest c x y || newest c y x) = true :=
  c.moments.le_total _ _

theorem ascending_eq :
    ascending c = lexical (fun x y => c.dates.le x.date y.date) (newest c) := rfl

theorem descending_eq :
    descending c = lexical (fun x y => c.dates.le y.date x.date) (newest c) := rfl

theorem ascending_trans (x y z : Entry) (h₁ : ascending c x y = true)
    (h₂ : ascending c y z = true) : ascending c x z = true := by
  rw [ascending_eq] at *
  exact lexical_trans (fun x y z => c.dates.le_trans x.date y.date z.date) (newest_trans c)
    (fun x y => c.dates.le_total x.date y.date) x y z h₁ h₂

theorem ascending_total (x y : Entry) : (ascending c x y || ascending c y x) = true := by
  rw [ascending_eq]
  exact lexical_total (fun x y => c.dates.le_total x.date y.date) (newest_total c) x y

theorem descending_trans (x y z : Entry) (h₁ : descending c x y = true)
    (h₂ : descending c y z = true) : descending c x z = true := by
  rw [descending_eq] at *
  exact lexical_trans (fun x y z h h' => c.dates.le_trans z.date y.date x.date h' h)
    (newest_trans c) (fun x y => c.dates.le_total y.date x.date) x y z h₁ h₂

theorem descending_total (x y : Entry) : (descending c x y || descending c y x) = true := by
  rw [descending_eq]
  exact lexical_total (fun x y => c.dates.le_total y.date x.date) (newest_total c) x y

section First
variable {before : Entry → Entry → Bool}

@[simp] theorem first?_eq_none_iff {l : List Entry} : first? before l = none ↔ l = [] := by
  cases l with
  | nil => simp [first?]
  | cons e l =>
    rw [first?]
    cases first? before l with
    | none => simp
    | some best => by_cases h : before e best = true <;> simp [h]

/-- The first entry of a selection is one of them, and none of them is before it. -/
theorem first?_spec (htrans : ∀ a b c, before a b = true → before b c = true → before a c = true)
    (htotal : ∀ a b, (before a b || before b a) = true) {l : List Entry} {e : Entry}
    (h : first? before l = some e) : e ∈ l ∧ ∀ e' ∈ l, before e e' = true := by
  have hrefl (a : Entry) : before a a = true := by simpa using htotal a a
  induction l generalizing e with
  | nil => cases h
  | cons a l ih =>
    rw [first?] at h
    cases hbest : first? before l with
    | none =>
      rw [hbest] at h
      cases h
      rw [first?_eq_none_iff] at hbest
      subst hbest
      simp [hrefl]
    | some best =>
      obtain ⟨hmem, hall⟩ := ih hbest
      rw [hbest] at h
      dsimp only at h
      split at h
      · next hab =>
        cases h
        refine ⟨List.mem_cons_self, List.forall_mem_cons.2 ⟨hrefl a, fun e' he' => ?_⟩⟩
        exact htrans a best e' hab (hall e' he')
      · next hab =>
        cases h
        have hba : before e a = true := by simpa [hab] using htotal a e
        exact ⟨List.mem_cons_of_mem _ hmem, List.forall_mem_cons.2 ⟨hba, hall⟩⟩

end First

/-! ## Entries of stored samples -/

/-- The cells that a sample is stored in. -/
def ofRecorded (r : Recorded) : Entry := ⟨.text r.date.text, .integer r.value, .text r.createdAt⟩

theorem recorded?_ofRecorded {r : Recorded} (h : r.date.IsFourDigit) :
    (ofRecorded r).recorded? = some r := by
  rw [ofRecorded, recorded?, Date.ofLoose?_text h]
  rfl

theorem lt_or_le_and_iff {a b : Date} {p : Prop} : a < b ∨ a ≤ b ∧ p ↔ a < b ∨ a = b ∧ p := by
  constructor
  · rintro (h | ⟨h, hp⟩)
    · exact .inl h
    · by_cases hlt : a < b
      · exact .inl hlt
      · exact .inr ⟨Std.le_antisymm h (Std.not_lt.1 hlt), hp⟩
  · rintro (h | ⟨rfl, hp⟩)
    · exact .inl h
    · exact .inr ⟨Std.le_refl _, hp⟩

section Order
variable {a b : Recorded} (ha : a.date.IsFourDigit) (hb : b.date.IsFourDigit) (c : Columns)
include ha hb

theorem ascending_ofRecorded : ascending c (ofRecorded a) (ofRecorded b) = true ↔
    (Recorded.collated c.moments.collation).downTo b a = true := by
  have hlt : (b.date.text ≤ a.date.text) = (b.date ≤ a.date) :=
    propext (Date.text_le_bounded_iff hb ha.2)
  have hle : (a.date.text ≤ b.date.text) = (a.date ≤ b.date) :=
    propext (Date.text_le_bounded_iff ha hb.2)
  simp only [ascending, ofRecorded, Column.lt, Column.le, Column.key, Collation.key_dateText, Cell.le,
    hlt, hle, Bool.or_eq_true, Bool.and_eq_true, Bool.not_eq_true', decide_eq_true_eq,
    decide_eq_false_iff_not, Std.not_le, Chronology.downTo_iff, Recorded.date_collated,
    Recorded.notAfter_collated]
  rw [lt_or_le_and_iff, eq_comm (a := a.date)]

theorem descending_ofRecorded : descending c (ofRecorded a) (ofRecorded b) = true ↔
    (Recorded.collated c.moments.collation).upTo b a = true := by
  have hlt : (a.date.text ≤ b.date.text) = (a.date ≤ b.date) :=
    propext (Date.text_le_bounded_iff ha hb.2)
  have hle : (b.date.text ≤ a.date.text) = (b.date ≤ a.date) :=
    propext (Date.text_le_bounded_iff hb ha.2)
  simp only [descending, ofRecorded, Column.lt, Column.le, Column.key, Collation.key_dateText, Cell.le,
    hlt, hle, Bool.or_eq_true, Bool.and_eq_true, Bool.not_eq_true', decide_eq_true_eq,
    decide_eq_false_iff_not, Std.not_le, Chronology.upTo_iff, Recorded.date_collated,
    Recorded.notAfter_collated]
  exact lt_or_le_and_iff

end Order

section Dates
variable {r : Recorded} {day : Date} (hr : r.date.IsFourDigit) (c : Columns)
include hr

section Bounded
variable (hday : day.year ≤ 9999)
include hday

theorem isUpTo_ofRecorded : isUpTo c day (ofRecorded r) = decide (r.date ≤ day) := by
  simp only [isUpTo, ofRecorded, Column.le, Column.key, Collation.key_dateText, Cell.le,
    Date.text_le_bounded_iff hr hday]
  rfl

theorem isFrom_ofRecorded : isFrom c day (ofRecorded r) = decide (day ≤ r.date) := by
  simp only [isFrom, ofRecorded, Column.le, Column.key, Collation.key_dateText, Cell.le,
    Date.bounded_le_text_iff hr hday]
  rfl

end Bounded

theorem isUpTo_ofRecorded_of_late (hday : 9999 < day.year) :
    isUpTo c day (ofRecorded r) = false := by
  have hlt := Date.text_lt_of_late hday hr
  simp only [isUpTo, ofRecorded, Column.le, Column.key, Collation.key_dateText, Cell.le,
    decide_eq_false (String.not_le.2 hlt), Bool.and_false]

theorem isOn_ofRecorded (day : Date) : isOn c day (ofRecorded r) = (r.date == day) := by
  rw [Bool.eq_iff_iff, beq_iff_eq, ← Date.text_eq_text_iff hr]
  simp only [isOn, ofRecorded, Column.same, Column.key, Collation.key_dateText]
  constructor
  · exact Cell.eq_of_same_text
  · intro h
    simp [h, Cell.same, Cell.le]

end Dates

/-- What holds the first of a class of entries is the answer to a lookup of one sample. -/
theorem exists_pick_of_first? {before : Entry → Entry → Bool}
    (htrans : ∀ a b c, before a b = true → before b c = true → before a c = true)
    (htotal : ∀ a b, (before a b || before b a) = true) {rows : List Recorded}
    {entries : List Entry} (hentries : ∀ e, e ∈ entries ↔ e ∈ rows.map ofRecorded)
    (hrows : ∀ r ∈ rows, r.date.IsFourDigit)
    {p : Entry → Bool} {q : Recorded → Bool} {le : Recorded → Recorded → Bool}
    (hp : ∀ r ∈ rows, p (ofRecorded r) = q r)
    (hle : ∀ a ∈ rows, ∀ b ∈ rows, q a = true → q b = true →
      before (ofRecorded a) (ofRecorded b) = true → le b a = true) :
    ∃ found, (first? before (entries.filter p)).toList.mapM recorded? = some found ∧
      Chronology.IsPick q le rows found := by
  cases hfirst : first? before (entries.filter p) with
  | none =>
    refine ⟨[], rfl, .inl ⟨rfl, fun r hr => ?_⟩⟩
    rw [first?_eq_none_iff, List.filter_eq_nil_iff] at hfirst
    have hnot := hfirst _ ((hentries _).2 (List.mem_map_of_mem hr))
    rw [hp r hr] at hnot
    exact Bool.eq_false_iff.2 hnot
  | some e =>
    obtain ⟨hmem, hall⟩ := first?_spec htrans htotal hfirst
    obtain ⟨hmem, hpe⟩ := List.mem_filter.1 hmem
    obtain ⟨r, hr, rfl⟩ := List.mem_map.1 ((hentries _).1 hmem)
    rw [hp r hr] at hpe
    refine ⟨[r], ?_, .inr ⟨r, hr, rfl, hpe, fun r' hr' hq => ?_⟩⟩
    · simp [recorded?_ofRecorded (hrows r hr)]
    · apply hle r hr r' hr' hpe hq
      apply hall
      rw [List.mem_filter, hp r' hr']
      exact ⟨(hentries _).2 (List.mem_map_of_mem hr'), hq⟩

/-- A lookup that ends after the year 9999 selects nothing. -/
theorem select_of_isLate {rows : List Recorded} (hrows : ∀ r ∈ rows, r.date.IsFourDigit)
    (c : Columns) {entries : List Entry} (hentries : entries.Perm (rows.map ofRecorded))
    {lookup : Lookup} (hlate : lookup.isLate = true) : select c lookup entries = [] := by
  have hempty {p : Entry → Bool} (hp : ∀ r ∈ rows, p (ofRecorded r) = false) :
      entries.filter p = [] := by
    rw [List.filter_eq_nil_iff]
    intro e he
    obtain ⟨r, hr, rfl⟩ := List.mem_map.1 (hentries.mem_iff.1 he)
    simp [hp r hr]
  cases lookup with
  | base => cases hlate
  | latest => cases hlate
  | exact day =>
    have hday : 9999 < day.year := of_decide_eq_true hlate
    rw [select, hempty fun r hr => ?_]
    · rfl
    · have hne : r.date ≠ day := by
        rintro rfl
        have := (hrows r hr).2
        omega
      simp [isOn_ofRecorded (hrows r hr), hne]
  | onOrBefore day =>
    have hday : 9999 < day.year := of_decide_eq_true hlate
    rw [select, hempty fun r hr => isUpTo_ofRecorded_of_late (hrows r hr) c hday]
    rfl
  | range first last =>
    have hlast : 9999 < last.year := of_decide_eq_true hlate
    rw [select, hempty fun r hr => ?_]
    · rfl
    · rw [isUpTo_ofRecorded_of_late (hrows r hr) c hlast, Bool.and_false]

/-- Sorted entries are read as the samples they hold, in another order. -/
theorem exists_perm_of_sort {rows : List Recorded} (hrows : ∀ r ∈ rows, r.date.IsFourDigit)
    (c : Columns) {entries : List Entry} (hentries : entries.Perm (rows.map ofRecorded)) :
    ∃ found, (Sorted.sort (ascending c) entries).mapM recorded? = some found ∧
      found.Perm rows := by
  have hread : ∀ r ∈ rows, (recorded? ∘ ofRecorded) r = some r :=
    fun r hr => recorded?_ofRecorded (hrows r hr)
  have hsorted := (Sorted.perm_sort (ascending c) entries).trans hentries
  refine ⟨_, mapM_eq_some_filterMap ?_, ?_⟩
  · intro e he
    obtain ⟨r, hr, rfl⟩ := List.mem_map.1 (hsorted.mem_iff.1 he)
    exact Option.isSome_iff_exists.2 ⟨r, hread r hr⟩
  · have hsame : (rows.map ofRecorded).filterMap recorded? = rows := by
      rw [List.filterMap_map, List.filterMap_congr (g := some) hread, List.filterMap_some]
    have hperm := hsorted.filterMap recorded?
    rwa [hsame] at hperm

theorem filter_range_ofRecorded {rows : List Recorded} (hrows : ∀ r ∈ rows, r.date.IsFourDigit)
    (c : Columns) {first last : Date} (hfirst : first.year ≤ 9999) (hlast : last.year ≤ 9999) :
    (rows.map ofRecorded).filter (fun e => isFrom c first e && isUpTo c last e) =
      (rows.filter fun r => decide (first ≤ r.date) && decide (r.date ≤ last)).map ofRecorded := by
  rw [List.filter_map]
  congr 1
  apply List.filter_congr
  intro r hr
  rw [Function.comp_apply, isFrom_ofRecorded (hrows r hr) c hfirst,
    isUpTo_ofRecorded (hrows r hr) c hlast]

/-- A selection from stored samples can be read, and answers the lookup as documented, in whatever
order the samples come up. -/
theorem exists_documented_select {rows : List Recorded} (hrows : ∀ r ∈ rows, r.date.IsFourDigit)
    {c : Columns} (hvalues : ∀ r ∈ rows, c.values.isNonzero (.integer r.value) = (r.value != 0))
    {entries : List Entry} (hentries : entries.Perm (rows.map ofRecorded)) {lookup : Lookup}
    (hdates : ∀ day ∈ lookup.dates, day.year ≤ 9999) :
    ∃ found, (select c lookup entries).mapM recorded? = some found ∧
      (Recorded.collated c.moments.collation).Documented rows lookup found := by
  have hmem (e : Entry) : e ∈ entries ↔ e ∈ rows.map ofRecorded := hentries.mem_iff
  cases lookup with
  | base =>
    apply exists_pick_of_first? (ascending_trans c) (ascending_total c) hmem hrows hvalues
    intro a ha b hb _ _ h
    exact (ascending_ofRecorded (hrows a ha) (hrows b hb) c).1 h
  | latest =>
    have hall : entries.filter (fun _ => true) = entries := List.filter_true _
    rw [select, ← hall]
    apply exists_pick_of_first? (descending_trans c) (descending_total c) hmem hrows
    · intro r _
      rfl
    · intro a ha b hb _ _ h
      exact (descending_ofRecorded (hrows a ha) (hrows b hb) c).1 h
  | exact day =>
    apply exists_pick_of_first? (newest_trans c) (newest_total c) hmem hrows
    · intro r hr
      exact isOn_ofRecorded (hrows r hr) c day
    · intro a ha b hb hda hdb h
      have hdate : b.date = a.date := by
        rw [Chronology.covers_exact] at hda hdb
        exact hdb.trans hda.symm
      exact Chronology.upTo_iff.2 (.inr ⟨hdate, h⟩)
  | onOrBefore day =>
    apply exists_pick_of_first? (descending_trans c) (descending_total c) hmem hrows
    · intro r hr
      exact isUpTo_ofRecorded (hrows r hr) c (hdates day (by simp [Lookup.dates]))
    · intro a ha b hb _ _ h
      exact (descending_ofRecorded (hrows a ha) (hrows b hb) c).1 h
  | range first last =>
    have hrange := hentries.filter fun e => isFrom c first e && isUpTo c last e
    rw [filter_range_ofRecorded hrows c (hdates first (by simp [Lookup.dates]))
      (hdates last (by simp [Lookup.dates]))] at hrange
    exact exists_perm_of_sort (fun r hr => hrows r (List.mem_filter.1 hr).1) c hrange

end Entry

namespace Database

variable {db : Database} {b : Binding} {v : View}

/-- A lookup is a selection from the rows of a table in some order. -/
theorem exists_select_of_view? [Scan] (hv : db.view? b = some v) (lookup : Lookup) :
    ∃ entries, entries.Perm (v.table.rows.map v.entry) ∧
      db.lookup? b lookup = (Entry.select v.toColumns lookup entries).mapM Entry.recorded? := by
  refine ⟨_, (Scan.rows_perm (db.access b v.table) lookup v.table).map v.entry, ?_⟩
  rw [lookup?, hv]
  rfl

/-- A table of samples answers lookups up to the year 9999 as documented, in whatever order its rows
come up. -/
theorem exists_documented_of_view? [Scan] (hv : db.view? b = some v) {rows : List Recorded}
    (hsamples : v.table.rows.map v.entry = rows.map Entry.ofRecorded)
    (hrows : ∀ r ∈ rows, r.date.IsFourDigit)
    (hvalues : ∀ r ∈ rows, v.values.isNonzero (.integer r.value) = (r.value != 0))
    {lookup : Lookup} (hdates : ∀ day ∈ lookup.dates, day.year ≤ 9999) :
    ∃ found, db.source b lookup = .ok found ∧
      (Recorded.collated v.moments.collation).Documented rows lookup found := by
  obtain ⟨entries, hentries, hlookup⟩ := exists_select_of_view? hv lookup
  rw [hsamples] at hentries
  obtain ⟨found, hfound, hdocumented⟩ :=
    Entry.exists_documented_select hrows hvalues hentries hdates
  refine ⟨found, ?_, hdocumented⟩
  rw [source, hlookup, hfound]

/-- A lookup of samples that ends after the year 9999 finds nothing. -/
theorem source_of_isLate [Scan] (hv : db.view? b = some v) {rows : List Recorded}
    (hsamples : v.table.rows.map v.entry = rows.map Entry.ofRecorded)
    (hrows : ∀ r ∈ rows, r.date.IsFourDigit) {lookup : Lookup} (hlate : lookup.isLate = true) :
    db.source b lookup = .ok [] := by
  obtain ⟨entries, hentries, hlookup⟩ := exists_select_of_view? hv lookup
  rw [hsamples] at hentries
  rw [source, hlookup, Entry.select_of_isLate hrows _ hentries hlate]
  rfl

end Database
end TimeSeries
