import Mathlib.Data.List.Pairwise
import TimeSeries.Observation
import TimeSeries.Proofs.Greatest

/-!
What the answer to a lookup has to be, for rows of any kind that hold a sample and can be told apart
by when they were created. Rows that agree in both their dates and their moments of creation aside,
every lookup has one answer, and the order of the rows does not matter.
-/
namespace TimeSeries

/-- Rows with a sample each, of which one is never after another one in a linear sequence. -/
structure Chronology (α : Type) where
  sample : α → Observation
  notAfter : α → α → Bool
  trans : ∀ a b c, notAfter a b = true → notAfter b c = true → notAfter a c = true
  total : ∀ a b, (notAfter a b || notAfter b a) = true

namespace Chronology

variable {α : Type} (k : Chronology α)

def date (a : α) : Date := (k.sample a).date

/-- By date, and on one date by creation. -/
def upTo (a b : α) : Bool :=
  decide (k.date a < k.date b) || decide (k.date a = k.date b) && k.notAfter a b

/-- The latest date first, and on one date by creation. -/
def downTo (a b : α) : Bool :=
  decide (k.date b < k.date a) || decide (k.date a = k.date b) && k.notAfter a b

/-- Rows between which a lookup cannot choose. -/
def Ties (a b : α) : Prop := k.date a = k.date b ∧ k.notAfter a b = true ∧ k.notAfter b a = true

/-- No two rows share both the date and the moment of creation. -/
def Distinct (rows : List α) : Prop := rows.Pairwise fun a b => ¬ k.Ties a b

/-- The rows that a lookup is about. -/
def covers : Lookup → α → Bool
  | .base, a => (k.sample a).value != 0
  | .latest, _ => true
  | .exact day, a => k.date a == day
  | .onOrBefore day, a => decide (k.date a ≤ day)
  | .range first last, a => decide (first ≤ k.date a) && decide (k.date a ≤ last)

/-- The order whose greatest row answers a lookup. -/
def order : Lookup → α → α → Bool
  | .base => k.downTo
  | _ => k.upTo

/-- A row of a class that none of the class is greater than, if the class has a row at all. -/
def IsPick (p : α → Bool) (le : α → α → Bool) (rows found : List α) : Prop :=
  (found = [] ∧ ∀ a ∈ rows, p a = false) ∨
    ∃ a ∈ rows, found = [a] ∧ p a = true ∧ ∀ b ∈ rows, p b = true → le b a = true

/-- The rows answer the lookup: all those in the range, in some order, or else the greatest one. -/
def Documented (rows : List α) (lookup : Lookup) (found : List α) : Prop :=
  match lookup with
  | .range _ _ => found.Perm (rows.filter (k.covers lookup))
  | _ => IsPick (k.covers lookup) (k.order lookup) rows found

/-- The one row that answers a lookup, if there is one. -/
def pick? (rows : List α) (lookup : Lookup) : Option α :=
  Greatest.last? (k.order lookup) (rows.filter (k.covers lookup))

variable {k}

@[simp] theorem covers_exact {day : Date} {a : α} :
    k.covers (.exact day) a = true ↔ k.date a = day := by simp [covers]

@[simp] theorem covers_onOrBefore {day : Date} {a : α} :
    k.covers (.onOrBefore day) a = true ↔ k.date a ≤ day := by simp [covers]

@[simp] theorem covers_range {first last : Date} {a : α} :
    k.covers (.range first last) a = true ↔ first ≤ k.date a ∧ k.date a ≤ last := by simp [covers]

theorem upTo_iff {a b : α} : k.upTo a b = true ↔
    k.date a < k.date b ∨ k.date a = k.date b ∧ k.notAfter a b = true := by
  simp [upTo]

theorem downTo_iff {a b : α} : k.downTo a b = true ↔
    k.date b < k.date a ∨ k.date a = k.date b ∧ k.notAfter a b = true := by
  simp [downTo]

theorem order_trans (lookup : Lookup) (a b c : α) (h₁ : k.order lookup a b = true)
    (h₂ : k.order lookup b c = true) : k.order lookup a c = true := by
  have hup (h₁ : k.upTo a b = true) (h₂ : k.upTo b c = true) : k.upTo a c = true := by
    rw [upTo_iff] at *
    rcases h₁ with h₁ | ⟨h₁, hc₁⟩
    · rcases h₂ with h₂ | ⟨h₂, -⟩
      · exact .inl (Std.lt_trans h₁ h₂)
      · exact .inl (h₂ ▸ h₁)
    · rcases h₂ with h₂ | ⟨h₂, hc₂⟩
      · exact .inl (h₁ ▸ h₂)
      · exact .inr ⟨h₁.trans h₂, k.trans a b c hc₁ hc₂⟩
  have hdown (h₁ : k.downTo a b = true) (h₂ : k.downTo b c = true) : k.downTo a c = true := by
    rw [downTo_iff] at *
    rcases h₁ with h₁ | ⟨h₁, hc₁⟩
    · rcases h₂ with h₂ | ⟨h₂, -⟩
      · exact .inl (Std.lt_trans h₂ h₁)
      · exact .inl (h₂ ▸ h₁)
    · rcases h₂ with h₂ | ⟨h₂, hc₂⟩
      · exact .inl (h₁ ▸ h₂)
      · exact .inr ⟨h₁.trans h₂, k.trans a b c hc₁ hc₂⟩
  cases lookup with
  | base => exact hdown h₁ h₂
  | _ => exact hup h₁ h₂

theorem order_total (lookup : Lookup) (a b : α) :
    (k.order lookup a b || k.order lookup b a) = true := by
  have hc : k.notAfter a b = true ∨ k.notAfter b a = true := by simpa using k.total a b
  have hd : k.date a < k.date b ∨ k.date a = k.date b ∨ k.date b < k.date a :=
    Std.lt_trichotomy _ _
  cases lookup <;> simp only [order, Bool.or_eq_true, upTo_iff, downTo_iff] <;> grind

theorem ties_of_order {lookup : Lookup} {a b : α} (h₁ : k.order lookup a b = true)
    (h₂ : k.order lookup b a = true) : k.Ties a b := by
  have hirrefl {d d' : Date} (h : d < d') (h' : d' < d) : False :=
    Std.lt_irrefl (Std.lt_trans h h')
  cases lookup <;> simp only [order, upTo_iff, downTo_iff, Ties] at * <;> grind

theorem Distinct.eq_of_ties {rows : List α} (h : k.Distinct rows) {a b : α} (ha : a ∈ rows)
    (hb : b ∈ rows) (hties : k.Ties a b) : a = b := by
  by_contra hne
  have hsymm : Std.Symm fun a b : α => ¬ k.Ties a b :=
    ⟨fun a b hnot hab => hnot ⟨hab.1.symm, hab.2.2, hab.2.1⟩⟩
  exact List.Pairwise.forall h ha hb hne hties

theorem Distinct.filter {rows : List α} (h : k.Distinct rows) (p : α → Bool) :
    k.Distinct (rows.filter p) := List.Pairwise.filter p h

theorem Distinct.perm {rows rows' : List α} (h : k.Distinct rows) (hp : rows.Perm rows') :
    k.Distinct rows' := by
  apply hp.pairwise h
  intro a b hnot hab
  exact hnot ⟨hab.1.symm, hab.2.2, hab.2.1⟩

theorem mem_of_pick? {rows : List α} {lookup : Lookup} {a : α} (h : k.pick? rows lookup = some a) :
    a ∈ rows ∧ k.covers lookup a = true := List.mem_filter.1 (Greatest.mem_of_last? h)

/-- Being the greatest row is a matter of the rows, not of their order. -/
theorem pick?_eq_some_iff {rows : List α} (h : k.Distinct rows) {lookup : Lookup} {a : α} :
    k.pick? rows lookup = some a ↔ (a ∈ rows ∧ k.covers lookup a = true) ∧
      ∀ b ∈ rows, k.covers lookup b = true → k.order lookup b a = true := by
  rw [pick?, Greatest.last?_eq_some_iff_of_distinct (order_trans lookup) (order_total lookup)]
  · simp only [List.mem_filter, and_imp]
  · intro a ha b hb hab hba
    exact (h.filter _).eq_of_ties ha hb (ties_of_order hab hba)

/-- Only the rows that a lookup is about matter to it. -/
theorem pick?_congr {rows rows' : List α} (h : k.Distinct rows) (h' : k.Distinct rows')
    {lookup : Lookup} (hmem : ∀ a, k.covers lookup a = true → (a ∈ rows ↔ a ∈ rows')) :
    k.pick? rows lookup = k.pick? rows' lookup := by
  ext a
  rw [pick?_eq_some_iff h, pick?_eq_some_iff h']
  constructor
  · rintro ⟨⟨ha, hcov⟩, hbest⟩
    exact ⟨⟨(hmem a hcov).1 ha, hcov⟩, fun b hb hcov => hbest b ((hmem b hcov).2 hb) hcov⟩
  · rintro ⟨⟨ha, hcov⟩, hbest⟩
    exact ⟨⟨(hmem a hcov).2 ha, hcov⟩, fun b hb hcov => hbest b ((hmem b hcov).1 hb) hcov⟩

theorem pick?_eq_none_iff {rows : List α} {lookup : Lookup} :
    k.pick? rows lookup = none ↔ ∀ a ∈ rows, k.covers lookup a = false := by
  simp [pick?]

/-- Of rows that a lookup is about one is found. -/
theorem exists_pick? {rows : List α} {lookup : Lookup} {a : α} (ha : a ∈ rows)
    (hcovers : k.covers lookup a = true) : ∃ b, k.pick? rows lookup = some b := by
  cases hp : k.pick? rows lookup with
  | none => exact absurd (pick?_eq_none_iff.1 hp a ha) (by simp [hcovers])
  | some b => exact ⟨b, rfl⟩

theorem pick?_concat (rows : List α) (a : α) (lookup : Lookup) :
    k.pick? (rows ++ [a]) lookup =
      if k.covers lookup a = true then Greatest.later (k.order lookup) (k.pick? rows lookup) a
      else k.pick? rows lookup := by
  rw [pick?, List.filter_append, List.filter_singleton]
  cases k.covers lookup a <;> simp [pick?]

/-- A lookup of one row has one answer. -/
theorem isPick_iff {rows found : List α} (h : k.Distinct rows) {lookup : Lookup} :
    IsPick (k.covers lookup) (k.order lookup) rows found ↔
      found = (k.pick? rows lookup).toList := by
  constructor
  · rintro (⟨rfl, hnone⟩ | ⟨a, ha, rfl, hcovers, hbest⟩)
    · rw [pick?_eq_none_iff.2 hnone]
      rfl
    · rw [(pick?_eq_some_iff h).2 ⟨⟨ha, hcovers⟩, hbest⟩]
      rfl
  · rintro rfl
    cases hp : k.pick? rows lookup with
    | none => exact .inl ⟨rfl, pick?_eq_none_iff.1 hp⟩
    | some a =>
      obtain ⟨⟨ha, hcovers⟩, hbest⟩ := (pick?_eq_some_iff h).1 hp
      exact .inr ⟨a, ha, rfl, hcovers, hbest⟩

theorem Documented.unique {rows found found' : List α} (h : k.Distinct rows) {lookup : Lookup}
    (hone : ∀ first last, lookup ≠ .range first last) (hfound : k.Documented rows lookup found)
    (hfound' : k.Documented rows lookup found') : found = found' := by
  cases lookup with
  | range first last => exact absurd rfl (hone first last)
  | _ => exact ((isPick_iff h).1 hfound).trans ((isPick_iff h).1 hfound').symm

variable (k) in
/-- The answer to a lookup in the order of the rows. -/
def answer (rows : List α) (lookup : Lookup) : List α :=
  match lookup with
  | .range _ _ => rows.filter (k.covers lookup)
  | _ => (k.pick? rows lookup).toList

theorem documented_answer {rows : List α} (h : k.Distinct rows) (lookup : Lookup) :
    k.Documented rows lookup (k.answer rows lookup) := by
  cases lookup with
  | range first last => exact .refl _
  | _ => exact (isPick_iff h).2 rfl

/-- Rows that are shown as other rows, with the same samples and for each date in the same sequence,
are looked up in the same way. -/
theorem Documented.map {β : Type} {k' : Chronology β} {f : α → β} {rows found : List α}
    {lookup : Lookup} (h : k.Documented rows lookup found)
    (hsample : ∀ a, k'.sample (f a) = k.sample a)
    (horder : ∀ a ∈ rows, ∀ b ∈ rows, k.date a = k.date b → k.notAfter a b = true →
      k'.notAfter (f a) (f b) = true) : k'.Documented (rows.map f) lookup (found.map f) := by
  have hdate (a : α) : k'.date (f a) = k.date a := by rw [date, hsample, date]
  have hcovers (lookup : Lookup) (a : α) : k'.covers lookup (f a) = k.covers lookup a := by
    cases lookup <;> simp only [covers, hdate, hsample]
  have hle (lookup : Lookup) (a : α) (ha : a ∈ rows) (b : α) (hb : b ∈ rows)
      (hab : k.order lookup a b = true) : k'.order lookup (f a) (f b) = true := by
    have hnotAfter := horder a ha b hb
    cases lookup <;> simp only [order, upTo_iff, downTo_iff, hdate] at hab ⊢ <;> grind
  have hpick (lookup : Lookup) (h : IsPick (k.covers lookup) (k.order lookup) rows found) :
      IsPick (k'.covers lookup) (k'.order lookup) (rows.map f) (found.map f) := by
    rcases h with ⟨rfl, hnone⟩ | ⟨a, ha, rfl, hcov, hbest⟩
    · refine .inl ⟨rfl, List.forall_mem_map.2 fun a ha => ?_⟩
      rw [hcovers, hnone a ha]
    · refine .inr ⟨f a, List.mem_map_of_mem ha, rfl, ?_, List.forall_mem_map.2 fun b hb hcov' => ?_⟩
      · rw [hcovers, hcov]
      · rw [hcovers] at hcov'
        exact hle lookup b hb a ha (hbest b hb hcov')
  cases lookup with
  | range first last =>
    show (found.map f).Perm ((rows.map f).filter (k'.covers (.range first last)))
    have hfilter : (rows.map f).filter (k'.covers (.range first last)) =
        (rows.filter (k.covers (.range first last))).map f := by
      rw [List.filter_map]
      congr 1
      apply List.filter_congr
      intro a _
      exact hcovers _ a
    rw [hfilter]
    exact List.Perm.map f h
  | base => exact hpick .base h
  | latest => exact hpick .latest h
  | exact day => exact hpick (.exact day) h
  | onOrBefore day => exact hpick (.onOrBefore day) h

end Chronology

/-- The chronology of stored samples: moments of recording compare as text. -/
def Recorded.chronology : Chronology Recorded where
  sample := (·.toObservation)
  notAfter a b := decide (a.createdAt ≤ b.createdAt)
  trans a b c h₁ h₂ := by
    rw [decide_eq_true_eq] at *
    exact String.le_trans h₁ h₂
  total a b := by simpa using String.le_total a.createdAt b.createdAt

@[simp] theorem Recorded.sample_chronology (r : Recorded) :
    Recorded.chronology.sample r = r.toObservation := rfl

@[simp] theorem Recorded.date_chronology (r : Recorded) : Recorded.chronology.date r = r.date := rfl

@[simp] theorem Recorded.notAfter_chronology (a b : Recorded) :
    Recorded.chronology.notAfter a b = decide (a.createdAt ≤ b.createdAt) := rfl

theorem Recorded.ties_iff {a b : Recorded} :
    Recorded.chronology.Ties a b ↔ a.date = b.date ∧ a.createdAt = b.createdAt := by
  simp only [Chronology.Ties, date_chronology, notAfter_chronology, decide_eq_true_eq]
  constructor
  · rintro ⟨hdate, h₁, h₂⟩
    exact ⟨hdate, String.le_antisymm h₁ h₂⟩
  · rintro ⟨hdate, hcreated⟩
    rw [hcreated]
    exact ⟨hdate, String.le_refl _, String.le_refl _⟩

/-- Every lookup of a binding is answered as documented from a table, in which no two rows share
both the date and the moment of recording. -/
structure Answers (source : Source) (binding : Binding) (rows : List Recorded) : Prop where
  distinct : rows.Pairwise fun a b => ¬ (a.date = b.date ∧ a.createdAt = b.createdAt)
  documented : ∀ lookup, ∃ found, source binding lookup = .ok found ∧
    Recorded.chronology.Documented rows lookup found

theorem Answers.chronology_distinct {source : Source} {binding : Binding} {rows : List Recorded}
    (h : Answers source binding rows) : Recorded.chronology.Distinct rows :=
  h.distinct.imp fun hab hties => hab (Recorded.ties_iff.1 hties)

/-- The source that answers from the tables at hand. -/
def Source.ofTables (tables : Binding → List Recorded) : Source := fun binding lookup =>
  .ok (Recorded.chronology.answer (tables binding) lookup)

theorem Source.answers_ofTables {tables : Binding → List Recorded} {binding : Binding}
    (h : (tables binding).Pairwise fun a b => ¬ (a.date = b.date ∧ a.createdAt = b.createdAt)) :
    Answers (Source.ofTables tables) binding (tables binding) :=
  ⟨h, fun lookup => ⟨_, rfl, Chronology.documented_answer
    (h.imp fun hab hties => hab (Recorded.ties_iff.1 hties)) lookup⟩⟩

end TimeSeries
