import Mathlib.Data.List.Induction
import Mathlib.Data.List.Sort
import TimeSeries.SortedMap

/-!
The keys and lookups of a map built up entry by entry, and lists in strictly ascending order of a
key.
-/
namespace TimeSeries

/-- A list in strictly ascending order of a key is determined by its members. -/
theorem eq_of_ascending_by {α κ : Type} [LE κ] [LT κ] [Std.IsLinearOrder κ]
    [Std.LawfulOrderLT κ] (key : α → κ) {l l' : List α} (h : l.Pairwise (key · < key ·))
    (h' : l'.Pairwise (key · < key ·)) (hmem : ∀ a, a ∈ l ↔ a ∈ l') : l = l' := by
  have : Std.Irrefl fun a b => key a < key b := ⟨fun _ => Std.lt_irrefl⟩
  have : Std.Antisymm fun a b => key a < key b :=
    ⟨fun _ _ h₁ h₂ => absurd (Std.lt_trans h₁ h₂) Std.lt_irrefl⟩
  exact h.eq_of_mem_iff h' hmem

namespace SortedMap

variable {κ ν : Type} [LT κ] [DecidableLT κ] [LE κ] [Std.IsLinearOrder κ] [Std.LawfulOrderLT κ]

theorem mem_keys_iff {m : SortedMap κ ν} {k : κ} : k ∈ m.keys ↔ ∃ v, m.find? k = some v := by
  simp [keys, find?_eq_some_iff]

theorem find?_insert [DecidableEq κ] (m : SortedMap κ ν) (k k' : κ) (v : ν) :
    (m.insert k v).find? k' = if k' = k then some v else m.find? k' := by
  split
  · next h => rw [h, find?_insert_self]
  · next h => exact find?_insert_of_ne m h v

@[simp] theorem mem_keys_insert [DecidableEq κ] {m : SortedMap κ ν} {k k' : κ} {v : ν} :
    k' ∈ (m.insert k v).keys ↔ k' = k ∨ k' ∈ m.keys := by
  rw [mem_keys_iff, mem_keys_iff, find?_insert]
  by_cases h : k' = k <;> simp [h]

@[simp] theorem ofList_nil : (ofList [] : SortedMap κ ν) = empty := rfl

@[simp] theorem ofList_concat (l : List (κ × ν)) (e : κ × ν) :
    ofList (l ++ [e]) = (ofList l).insert e.1 e.2 := by simp [ofList]

@[simp] theorem mem_keys_ofList [DecidableEq κ] {l : List (κ × ν)} {k : κ} :
    k ∈ (ofList l).keys ↔ ∃ e ∈ l, e.1 = k := by
  induction l using List.reverseRecOn with
  | nil => simp [keys]
  | append_singleton l e ih => simp [ih, or_comm, eq_comm]

/-- A key has its value if every entry under the key says so and there is one. -/
theorem find?_ofList_of_mem [DecidableEq κ] {l : List (κ × ν)} {k : κ} {v : ν} (h : (k, v) ∈ l)
    (hsame : ∀ e ∈ l, e.1 = k → e.2 = v) : (ofList l).find? k = some v := by
  induction l using List.reverseRecOn with
  | nil => cases h
  | append_singleton l e ih =>
    rw [ofList_concat, find?_insert]
    split
    · next hk => rw [hsame e (by simp) hk.symm]
    · next hk =>
      have hmem : (k, v) ∈ l := by
        rcases List.mem_append.1 h with h | h
        · exact h
        · obtain rfl := List.mem_singleton.1 h
          exact absurd rfl hk
      exact ih hmem fun e' he' => hsame e' (List.mem_append_left _ he')

omit [DecidableLT κ] [Std.IsLinearOrder κ] in
theorem nodup_toList (m : SortedMap κ ν) : m.toList.Nodup := by
  apply m.ascending.imp
  rintro a b hlt rfl
  exact Std.lt_irrefl hlt

end SortedMap
end TimeSeries
