/-!
Finite maps kept as lists in strictly ascending key order. A map is determined by its lookups, and
its entries come out by key whatever order they were put in.
-/
namespace TimeSeries

/-- A finite map, listed in strictly ascending key order. -/
structure SortedMap (κ ν : Type) [LT κ] where
  toList : List (κ × ν)
  ascending : toList.Pairwise (·.1 < ·.1)

namespace SortedMap

variable {κ ν : Type} [LT κ]

instance [DecidableEq κ] [DecidableEq ν] : DecidableEq (SortedMap κ ν) := fun m n =>
  if h : m.toList = n.toList then
    .isTrue (by cases m; cases n; simp_all)
  else
    .isFalse (by rintro rfl; exact h rfl)

def empty : SortedMap κ ν := ⟨[], .nil⟩

@[simp] theorem toList_empty : (empty : SortedMap κ ν).toList = [] := rfl

def keys (m : SortedMap κ ν) : List κ := m.toList.map (·.1)

theorem keys_ascending (m : SortedMap κ ν) : m.keys.Pairwise (· < ·) :=
  List.pairwise_map.2 m.ascending

theorem eq_of_not_lt [LE κ] [Std.IsLinearOrder κ] [Std.LawfulOrderLT κ] {a b : κ}
    (h₁ : ¬ a < b) (h₂ : ¬ b < a) : a = b :=
  Std.Trichotomous.trichotomous a b h₁ h₂

variable [DecidableLT κ]

/-- The value beside a key; a key is found by neither lying below nor above. -/
def lookup (k : κ) : List (κ × ν) → Option ν
  | [] => none
  | (k', v) :: l => if k < k' then none else if k' < k then lookup k l else some v

def find? (m : SortedMap κ ν) (k : κ) : Option ν := lookup k m.toList

def contains (m : SortedMap κ ν) (k : κ) : Bool := (m.find? k).isSome

/-- Put an entry in its place, over an earlier one of the same key. -/
def place (k : κ) (v : ν) : List (κ × ν) → List (κ × ν)
  | [] => [(k, v)]
  | (k', v') :: l =>
    if k < k' then (k, v) :: (k', v') :: l
    else if k' < k then (k', v') :: place k v l
    else (k, v) :: l

@[simp] theorem find?_empty (k : κ) : (empty : SortedMap κ ν).find? k = none := rfl

theorem mem_place {k : κ} {v : ν} {l : List (κ × ν)} {e : κ × ν} (h : e ∈ place k v l) :
    e = (k, v) ∨ e ∈ l := by
  induction l with
  | nil => simpa [place] using h
  | cons a l ih =>
    obtain ⟨k', v'⟩ := a
    rw [place] at h
    split at h
    · simpa using h
    · split at h
      · rcases List.mem_cons.1 h with h | h
        · exact .inr (List.mem_cons.2 (.inl h))
        · exact (ih h).imp_right (List.mem_cons_of_mem _)
      · exact (List.mem_cons.1 h).imp_right (List.mem_cons_of_mem _)

variable [LE κ] [Std.IsLinearOrder κ] [Std.LawfulOrderLT κ]

theorem ascending_place (k : κ) (v : ν) {l : List (κ × ν)} (h : l.Pairwise (·.1 < ·.1)) :
    (place k v l).Pairwise (·.1 < ·.1) := by
  induction l with
  | nil => simp [place]
  | cons a l ih =>
    obtain ⟨k', v'⟩ := a
    rw [List.pairwise_cons] at h
    rw [place]
    split
    · next hk =>
      refine List.pairwise_cons.2 ⟨fun e he => ?_, List.pairwise_cons.2 h⟩
      rcases List.mem_cons.1 he with rfl | he
      · exact hk
      · exact Std.lt_trans hk (h.1 e he)
    · next hk =>
      split
      · next hk' =>
        refine List.pairwise_cons.2 ⟨fun e he => ?_, ih h.2⟩
        rcases mem_place he with rfl | he
        · exact hk'
        · exact h.1 e he
      · next hk' =>
        obtain rfl := eq_of_not_lt hk hk'
        exact List.pairwise_cons.2 h

def insert (m : SortedMap κ ν) (k : κ) (v : ν) : SortedMap κ ν :=
  ⟨place k v m.toList, ascending_place k v m.ascending⟩

/-- Of several values for one key the last stays. -/
def ofList (l : List (κ × ν)) : SortedMap κ ν := l.foldl (fun m e => m.insert e.1 e.2) empty

omit [Std.IsLinearOrder κ] in
theorem lookup_place_self (k : κ) (v : ν) (l : List (κ × ν)) :
    lookup k (place k v l) = some v := by
  have irrefl : ¬ k < k := Std.lt_irrefl
  induction l with
  | nil => simp [place, lookup, irrefl]
  | cons a l ih =>
    obtain ⟨k', v'⟩ := a
    rw [place]
    split
    · simp [lookup, irrefl]
    · split
      · next h h' => simp [lookup, h, h', ih]
      · simp [lookup, irrefl]

theorem lookup_place_of_ne {k k' : κ} (h : k' ≠ k) (v : ν) {l : List (κ × ν)}
    (hl : l.Pairwise (·.1 < ·.1)) : lookup k' (place k v l) = lookup k' l := by
  induction l with
  | nil =>
    by_cases h₁ : k' < k <;> by_cases h₂ : k < k' <;> simp [place, lookup, h₁, h₂]
    exact h (eq_of_not_lt h₁ h₂)
  | cons a l ih =>
    obtain ⟨j, w⟩ := a
    rw [List.pairwise_cons] at hl
    rw [place]
    split
    · next hk =>
      by_cases h₁ : k' < k
      · have : k' < j := Std.lt_trans h₁ hk
        simp [lookup, h₁, this]
      · by_cases h₂ : k < k'
        · simp [lookup, h₁, h₂]
        · exact absurd (eq_of_not_lt h₁ h₂) h
    · next hk =>
      split
      · next hk' =>
        by_cases h₁ : k' < j
        · simp [lookup, h₁]
        · by_cases h₂ : j < k'
          · simp [lookup, h₁, h₂, ih hl.2]
          · simp [lookup, h₁, h₂]
      · next hk' =>
        obtain rfl := eq_of_not_lt hk hk'
        by_cases h₁ : k' < k
        · simp [lookup, h₁]
        · by_cases h₂ : k < k'
          · simp [lookup, h₁, h₂]
          · exact absurd (eq_of_not_lt h₁ h₂) h

@[simp] theorem find?_insert_self (m : SortedMap κ ν) (k : κ) (v : ν) :
    (m.insert k v).find? k = some v := lookup_place_self k v m.toList

theorem find?_insert_of_ne (m : SortedMap κ ν) {k k' : κ} (h : k' ≠ k) (v : ν) :
    (m.insert k v).find? k' = m.find? k' := lookup_place_of_ne h v m.ascending

theorem lookup_eq_some_iff {k : κ} {v : ν} {l : List (κ × ν)} (hl : l.Pairwise (·.1 < ·.1)) :
    lookup k l = some v ↔ (k, v) ∈ l := by
  induction l with
  | nil => simp [lookup]
  | cons a l ih =>
    obtain ⟨k', v'⟩ := a
    rw [List.pairwise_cons] at hl
    have below {e : κ × ν} (he : e ∈ l) : k' < e.1 := hl.1 e he
    rw [lookup, List.mem_cons]
    split
    · next h =>
      refine ⟨nofun, ?_⟩
      rintro (h' | h')
      · obtain ⟨rfl, rfl⟩ := Prod.mk.inj h'
        exact absurd h Std.lt_irrefl
      · exact absurd (Std.lt_trans h (below h')) Std.lt_irrefl
    · split
      · next h₁ h₂ =>
        rw [ih hl.2]
        refine ⟨.inr, ?_⟩
        rintro (h' | h')
        · obtain ⟨rfl, rfl⟩ := Prod.mk.inj h'
          exact absurd h₂ Std.lt_irrefl
        · exact h'
      · next h₁ h₂ =>
        obtain rfl := eq_of_not_lt h₁ h₂
        constructor
        · intro h; cases h; exact .inl rfl
        · rintro (h' | h')
          · exact congrArg some (Prod.mk.inj h').2.symm
          · exact absurd (below h') Std.lt_irrefl

theorem find?_eq_some_iff {m : SortedMap κ ν} {k : κ} {v : ν} :
    m.find? k = some v ↔ (k, v) ∈ m.toList := lookup_eq_some_iff m.ascending

end SortedMap
end TimeSeries
