/-!
Stable insertion sort by a Boolean comparison. The result is a permutation of the input, it is
ascending, and elements that compare equal keep their order.
-/
namespace TimeSeries.Sorted

variable {α : Type}

/-- Put an element before the first one that it does not follow. -/
def insert (le : α → α → Bool) (a : α) : List α → List α
  | [] => [a]
  | b :: l => if le a b then a :: b :: l else b :: insert le a l

/-- Elements that compare equal stay in the order they came in. -/
def sort (le : α → α → Bool) (l : List α) : List α := l.foldr (insert le) []

theorem perm_insert (le : α → α → Bool) (a : α) (l : List α) :
    (insert le a l).Perm (a :: l) := by
  induction l with
  | nil => exact .refl _
  | cons b l ih =>
    rw [insert]
    split
    · exact .refl _
    · exact (ih.cons b).trans (.swap a b l)

theorem perm_sort (le : α → α → Bool) (l : List α) : (sort le l).Perm l := by
  induction l with
  | nil => exact .refl _
  | cons a l ih => exact (perm_insert le a _).trans (ih.cons a)

@[simp] theorem mem_sort (le : α → α → Bool) (a : α) (l : List α) : a ∈ sort le l ↔ a ∈ l :=
  (perm_sort le l).mem_iff

theorem pairwise_insert {le : α → α → Bool}
    (trans : ∀ a b c, le a b = true → le b c = true → le a c = true)
    (total : ∀ a b, (le a b || le b a) = true) (a : α) {l : List α}
    (h : l.Pairwise (le · · = true)) : (insert le a l).Pairwise (le · · = true) := by
  induction l with
  | nil => simp [insert]
  | cons b l ih =>
    rw [List.pairwise_cons] at h
    rw [insert]
    split
    · next hab =>
      refine List.pairwise_cons.2 ⟨fun c hc => ?_, List.pairwise_cons.2 h⟩
      rcases List.mem_cons.1 hc with rfl | hc
      · exact hab
      · exact trans a b c hab (h.1 c hc)
    · next hab =>
      refine List.pairwise_cons.2 ⟨fun c hc => ?_, ih h.2⟩
      rcases List.mem_cons.1 ((perm_insert le a l).mem_iff.1 hc) with rfl | hc
      · simpa [hab] using total c b
      · exact h.1 c hc

theorem pairwise_sort {le : α → α → Bool}
    (trans : ∀ a b c, le a b = true → le b c = true → le a c = true)
    (total : ∀ a b, (le a b || le b a) = true) (l : List α) :
    (sort le l).Pairwise (le · · = true) := by
  induction l with
  | nil => exact .nil
  | cons a l ih => exact pairwise_insert trans total a ih

theorem filter_insert {le : α → α → Bool} {p : α → Bool} {a : α} {l : List α}
    (h : ∀ b ∈ l, p a = true → p b = true → le a b = true) :
    (insert le a l).filter p = (a :: l).filter p := by
  induction l with
  | nil => rfl
  | cons b l ih =>
    rw [insert]
    split
    · rfl
    · next hab =>
      have hnot : ¬ (p a = true ∧ p b = true) := fun hp => hab (h b List.mem_cons_self hp.1 hp.2)
      have ih := ih fun c hc => h c (List.mem_cons_of_mem _ hc)
      cases hpa : p a <;> cases hpb : p b <;> simp_all

/-- Elements between which the comparison cannot choose stay in the order they came in. -/
theorem filter_sort {le : α → α → Bool} {p : α → Bool} {l : List α}
    (h : ∀ a ∈ l, ∀ b ∈ l, p a = true → p b = true → le a b = true) :
    (sort le l).filter p = l.filter p := by
  induction l with
  | nil => rfl
  | cons a l ih =>
    have ih := ih fun b hb c hc => h b (List.mem_cons_of_mem _ hb) c (List.mem_cons_of_mem _ hc)
    show (insert le a (sort le l)).filter p = _
    rw [filter_insert, List.filter_cons, ih, List.filter_cons]
    intro b hb
    exact h a List.mem_cons_self b (List.mem_cons_of_mem _ ((mem_sort le b l).1 hb))

example : sort (fun a b => a.1 ≤ b.1) [(2, 0), (1, 0), (2, 1), (1, 1)]
    = [(1, 0), (1, 1), (2, 0), (2, 1)] := by decide

section Map
variable {β : Type} {le : α → α → Bool} {le' : β → β → Bool} {f : α → β}

theorem insert_map {a : α} {l : List α} (h : ∀ b ∈ l, le' (f a) (f b) = le a b) :
    insert le' (f a) (l.map f) = (insert le a l).map f := by
  induction l with
  | nil => rfl
  | cons b l ih =>
    rw [List.map_cons, insert, insert, h b List.mem_cons_self,
      ih fun c hc => h c (List.mem_cons_of_mem _ hc)]
    split <;> rfl

/-- Sorting before or after a map that keeps the comparison of what is sorted. -/
theorem sort_map {l : List α} (h : ∀ a ∈ l, ∀ b ∈ l, le' (f a) (f b) = le a b) :
    sort le' (l.map f) = (sort le l).map f := by
  induction l with
  | nil => rfl
  | cons a l ih =>
    have ih := ih fun b hb c hc => h b (List.mem_cons_of_mem _ hb) c (List.mem_cons_of_mem _ hc)
    show insert le' (f a) (sort le' (l.map f)) = (insert le a (sort le l)).map f
    rw [ih, insert_map]
    intro b hb
    exact h a List.mem_cons_self b (List.mem_cons_of_mem _ ((mem_sort le b l).1 hb))

end Map

end TimeSeries.Sorted
