import Mathlib.Data.List.Forall2
import Mathlib.Data.List.Induction
import TimeSeries.Sorted

/-!
The greatest element of a list by a Boolean comparison, the last one listed if several are equally
great. Whatever carries a value forward or lets a later record win picks its answer in this way.
-/
namespace TimeSeries.Greatest

variable {α β : Type} {le : α → α → Bool}

/-- The greater of two elements, the second one if they compare equal. -/
def later (le : α → α → Bool) : Option α → α → Option α
  | none, a => some a
  | some b, a => if le b a then some a else some b

/-- The greatest element, of several the last one. -/
def last? (le : α → α → Bool) (l : List α) : Option α := l.foldl (later le) none

@[simp] theorem last?_nil : last? le [] = none := rfl

@[simp] theorem last?_concat (l : List α) (a : α) :
    last? le (l ++ [a]) = later le (last? le l) a := by simp [last?]

@[simp] theorem later_eq_none_iff {best : Option α} {a : α} : later le best a = none ↔ False := by
  cases best with
  | none => simp [later]
  | some b => simp only [later]; split <;> simp

@[simp] theorem last?_eq_none_iff {l : List α} : last? le l = none ↔ l = [] := by
  induction l using List.reverseRecOn with
  | nil => simp
  | append_singleton l a _ => simp

theorem mem_of_last? {l : List α} {a : α} (h : last? le l = some a) : a ∈ l := by
  induction l using List.reverseRecOn with
  | nil => simp at h
  | append_singleton l b ih =>
    rw [last?_concat] at h
    cases hb : last? le l with
    | none =>
      rw [hb] at h
      cases h
      simp
    | some c =>
      rw [hb, later] at h
      split at h
      · cases h
        simp
      · cases h
        exact List.mem_append_left _ (ih hb)

theorem foldl_later_of_lt {a : α} {l : List α} (h : ∀ b ∈ l, le a b = false) :
    l.foldl (later le) (some a) = some a := by
  induction l with
  | nil => rfl
  | cons b l ih =>
    have hb := h b List.mem_cons_self
    rw [List.foldl_cons, later, if_neg (by simp [hb])]
    exact ih fun c hc => h c (List.mem_cons_of_mem _ hc)

theorem last?_append_cons {before after : List α} {a : α} (hb : ∀ b ∈ before, le b a = true)
    (ha : ∀ b ∈ after, le a b = false) : last? le (before ++ a :: after) = some a := by
  have hl : later le (last? le before) a = some a := by
    cases h : last? le before with
    | none => rfl
    | some b => simp [later, hb b (mem_of_last? h)]
  rw [last?, List.foldl_append, List.foldl_cons]
  change after.foldl (later le) (later le (last? le before) a) = some a
  rw [hl]
  exact foldl_later_of_lt ha

/-- In a list that ascends the greatest element is the last one. -/
theorem last?_eq_getLast? {l : List α} (h : l.Pairwise fun a b => le a b = true) :
    last? le l = l.getLast? := by
  induction l using List.reverseRecOn with
  | nil => rfl
  | append_singleton l a ih =>
    obtain ⟨hl, -, hle⟩ := List.pairwise_append.1 h
    rw [last?_concat, ih hl, List.getLast?_concat]
    cases hb : l.getLast? with
    | none => rfl
    | some b => simp [later, hle b (List.mem_of_getLast? hb) a (by simp)]

section Order
variable (trans : ∀ a b c, le a b = true → le b c = true → le a c = true)
  (total : ∀ a b, (le a b || le b a) = true)
include trans total

theorem exists_split_of_last? {l : List α} {a : α} (h : last? le l = some a) :
    ∃ before after, l = before ++ a :: after ∧ (∀ b ∈ before, le b a = true) ∧
      ∀ b ∈ after, le a b = false := by
  induction l using List.reverseRecOn generalizing a with
  | nil => simp at h
  | append_singleton l x ih =>
    rw [last?_concat] at h
    cases hl : last? le l with
    | none =>
      obtain rfl := last?_eq_none_iff.1 hl
      rw [hl] at h
      cases h
      exact ⟨[], [], rfl, by simp, by simp⟩
    | some c =>
      obtain ⟨before, after, rfl, hb, ha⟩ := ih hl
      rw [hl, later] at h
      split at h
      · next hcx =>
        cases h
        refine ⟨_, [], rfl, fun b hb' => ?_, by simp⟩
        rcases List.mem_append.1 hb' with hb' | hb'
        · exact trans b c x (hb b hb') hcx
        · rcases List.mem_cons.1 hb' with rfl | hb'
          · exact hcx
          · exact trans b c x (by simpa [ha b hb'] using total b c) hcx
      · next hcx =>
        cases h
        refine ⟨before, after ++ [x], by simp, hb, fun b hb' => ?_⟩
        rcases List.mem_append.1 hb' with hb' | hb'
        · exact ha b hb'
        · obtain rfl := List.mem_singleton.1 hb'
          simpa using hcx

/-- Nothing before the chosen element is greater, and everything after it is less. -/
theorem last?_eq_some_iff {l : List α} {a : α} : last? le l = some a ↔
    ∃ before after, l = before ++ a :: after ∧ (∀ b ∈ before, le b a = true) ∧
      ∀ b ∈ after, le a b = false := by
  constructor
  · exact exists_split_of_last? trans total
  · rintro ⟨before, after, rfl, hb, ha⟩
    exact last?_append_cons hb ha

theorem le_of_last? {l : List α} {a : α} (h : last? le l = some a) {b : α} (hb : b ∈ l) :
    le b a = true := by
  obtain ⟨before, after, rfl, h₁, h₂⟩ := (last?_eq_some_iff trans total).1 h
  rcases List.mem_append.1 hb with hb | hb
  · exact h₁ b hb
  · rcases List.mem_cons.1 hb with rfl | hb
    · simpa using total b b
    · simpa [h₂ b hb] using total a b

/-- Without elements that compare equal the order of the list does not matter. -/
theorem last?_eq_some_iff_of_distinct {l : List α}
    (distinct : ∀ a ∈ l, ∀ b ∈ l, le a b = true → le b a = true → a = b) {a : α} :
    last? le l = some a ↔ a ∈ l ∧ ∀ b ∈ l, le b a = true := by
  constructor
  · intro h
    exact ⟨mem_of_last? h, fun b hb => le_of_last? trans total h hb⟩
  · rintro ⟨ha, hle⟩
    cases h : last? le l with
    | none => simp_all
    | some b =>
      have hb := mem_of_last? h
      have hab := le_of_last? trans total h ha
      rw [distinct b hb a ha (hle b hb) hab]

/-- The chosen element of a class, by where it stands among all elements. -/
theorem last?_filter_eq_some_iff {p : α → Bool} {l : List α} {a : α} :
    last? le (l.filter p) = some a ↔ ∃ before after, l = before ++ a :: after ∧ p a = true ∧
      (∀ b ∈ before, p b = true → le b a = true) ∧ ∀ b ∈ after, p b = true → le a b = false := by
  rw [last?_eq_some_iff trans total]
  constructor
  · rintro ⟨before, after, hfilter, hbefore, hafter⟩
    obtain ⟨l₁, l₂, rfl, rfl, hrest⟩ := List.filter_eq_append_iff.1 hfilter
    obtain ⟨l₃, l₄, rfl, hnone, hp, rfl⟩ := List.filter_eq_cons_iff.1 hrest
    refine ⟨l₁ ++ l₃, l₄, by simp, hp, fun b hb hpb => ?_, fun b hb hpb => ?_⟩
    · rcases List.mem_append.1 hb with hb | hb
      · exact hbefore b (List.mem_filter.2 ⟨hb, hpb⟩)
      · exact absurd hpb (hnone b hb)
    · exact hafter b (List.mem_filter.2 ⟨hb, hpb⟩)
  · rintro ⟨before, after, rfl, hp, hbefore, hafter⟩
    refine ⟨before.filter p, after.filter p, by simp [hp], fun b hb => ?_, fun b hb => ?_⟩
    · obtain ⟨hb, hpb⟩ := List.mem_filter.1 hb
      exact hbefore b hb hpb
    · obtain ⟨hb, hpb⟩ := List.mem_filter.1 hb
      exact hafter b hb hpb

end Order

/-- A class of elements hides another one that lies below it. -/
theorem last?_filter_or {p q : α → Bool} {l : List α}
    (h : ∀ a ∈ l, ∀ b ∈ l, p a = true → q b = true → le a b = true ∧ le b a = false) :
    last? le (l.filter fun a => p a || q a) =
      (last? le (l.filter q)).or (last? le (l.filter p)) := by
  induction l using List.reverseRecOn with
  | nil => rfl
  | append_singleton l x ih =>
    have ih := ih fun a ha b hb => h a (by simp [ha]) b (by simp [hb])
    simp only [List.filter_append, List.filter_singleton]
    cases hq : q x with
    | true =>
      have hp : p x = false := by
        by_contra hp
        have := h x (by simp) x (by simp) (by simpa using hp) hq
        simp_all
      simp only [hp, Bool.or_true, cond_true, cond_false, List.append_nil, last?_concat, ih]
      cases hb : last? le (l.filter q) with
      | some b => cases hx : later le (some b) x <;> simp_all
      | none =>
        cases hc : last? le (l.filter p) with
        | none => rfl
        | some c =>
          obtain ⟨hc, hpc⟩ := List.mem_filter.1 (mem_of_last? hc)
          simp [later, (h c (by simp [hc]) x (by simp) hpc hq).1]
    | false =>
      simp only [Bool.or_false, cond_false, List.append_nil]
      cases hp : p x with
      | false => simpa using ih
      | true =>
        simp only [cond_true, last?_concat, ih]
        cases hb : last? le (l.filter q) with
        | none => rfl
        | some b =>
          obtain ⟨hb, hqb⟩ := List.mem_filter.1 (mem_of_last? hb)
          simp [later, (h x (by simp) b (by simp [hb]) hp hqb).2]

/-- The choice is carried along by a relation that keeps the comparison. -/
theorem last?_forall₂ {le' : β → β → Bool} {R : α → β → Prop}
    (hle : ∀ a a' b b', R a b → R a' b' → le' b b' = le a a') {l : List α} {l' : List β}
    (h : List.Forall₂ R l l') : Option.Rel R (last? le l) (last? le' l') := by
  have step (l : List α) (l' : List β) (h : List.Forall₂ R l l') (best : Option α)
      (best' : Option β) (hbest : Option.Rel R best best') :
      Option.Rel R (l.foldl (later le) best) (l'.foldl (later le') best') := by
    induction h generalizing best best' with
    | nil => exact hbest
    | @cons a b l l' hab _ ih =>
      refine ih _ _ ?_
      cases hbest with
      | none => exact .some hab
      | some hR =>
        rw [later, later, hle _ _ _ _ hR hab]
        split
        · exact .some hab
        · exact .some hR
  exact step l l' h none none .none

/-- The choice is made before or after a map that keeps the comparison. -/
theorem last?_map {le' : β → β → Bool} {f : α → β} (hle : ∀ a b, le' (f a) (f b) = le a b)
    (l : List α) : last? le' (l.map f) = (last? le l).map f := by
  induction l using List.reverseRecOn with
  | nil => rfl
  | append_singleton l a ih =>
    rw [List.map_append, List.map_singleton, last?_concat, last?_concat, ih]
    cases last? le l with
    | none => rfl
    | some b =>
      rw [Option.map_some, later, later, hle]
      split <;> rfl

/-! ## All greatest elements -/

/-- All elements that none is greater than, as they are listed. -/
def all (le : α → α → Bool) (l : List α) : List α := l.filter fun a => l.all fun b => le b a

theorem mem_all {l : List α} {a : α} : a ∈ all le l ↔ a ∈ l ∧ ∀ b ∈ l, le b a = true := by
  simp [all]

@[simp] theorem all_reverse (l : List α) : all le l.reverse = (all le l).reverse := by
  simp [all, List.filter_reverse]

theorem all_map {le' : β → β → Bool} {f : α → β} (hle : ∀ a b, le' (f a) (f b) = le a b)
    (l : List α) : all le' (l.map f) = (all le l).map f := by
  simp [all, List.filter_map, Function.comp_def, hle]

/-- Sorting leaves the greatest elements as they are listed, if it does not tell them apart. -/
theorem all_sort {le' : α → α → Bool} {l : List α}
    (h : ∀ a ∈ all le l, ∀ b ∈ all le l, le' a b = true) : all le (Sorted.sort le' l) = all le l := by
  have hall (a : α) : (Sorted.sort le' l).all (fun b => le b a) = l.all fun b => le b a := by
    rw [Bool.eq_iff_iff]
    simp
  simp only [all, hall]
  apply Sorted.filter_sort
  intro a ha b hb ha' hb'
  exact h a (List.mem_filter.2 ⟨ha, ha'⟩) b (List.mem_filter.2 ⟨hb, hb'⟩)

theorem last?_congr {le' : α → α → Bool} {l : List α}
    (h : ∀ a ∈ l, ∀ b ∈ l, le a b = le' a b) : last? le l = last? le' l := by
  induction l using List.reverseRecOn with
  | nil => rfl
  | append_singleton l a ih =>
    rw [last?_concat, last?_concat,
      ih fun b hb c hc => h b (List.mem_append_left _ hb) c (List.mem_append_left _ hc)]
    cases hl : last? le' l with
    | none => rfl
    | some b => rw [later, later, h b (List.mem_append_left _ (mem_of_last? hl)) a (by simp)]

/-- Of all greatest elements it is the last one that is chosen. -/
theorem last?_eq_getLast?_all (trans : ∀ a b c, le a b = true → le b c = true → le a c = true)
    (total : ∀ a b, (le a b || le b a) = true) (l : List α) :
    last? le l = (all le l).getLast? := by
  cases h : last? le l with
  | none =>
    rw [last?_eq_none_iff] at h
    subst h
    rfl
  | some a =>
    obtain ⟨before, after, hl, -, hafter⟩ := exists_split_of_last? trans total h
    have hlast (p : α → Bool) (hp : ∀ b, p b = true ↔ ∀ c ∈ l, le c b = true) :
        (l.filter p).getLast? = some a := by
      have ha : p a = true := (hp a).2 fun b hb => le_of_last? trans total h hb
      have hnone : after.filter p = [] := by
        rw [List.filter_eq_nil_iff]
        intro b hb hpb
        have hab : le a b = true := (hp b).1 hpb a (by simp [hl])
        rw [hafter b hb] at hab
        cases hab
      rw [hl, List.filter_append, List.filter_cons_of_pos ha, hnone, List.getLast?_concat]
    exact (hlast _ fun _ => List.all_eq_true).symm

/-- Of any elements there are greatest ones. -/
theorem all_eq_nil_iff (trans : ∀ a b c, le a b = true → le b c = true → le a c = true)
    (total : ∀ a b, (le a b || le b a) = true) {l : List α} : all le l = [] ↔ l = [] := by
  rw [← List.getLast?_eq_none_iff, ← last?_eq_getLast?_all trans total, last?_eq_none_iff]

end TimeSeries.Greatest
