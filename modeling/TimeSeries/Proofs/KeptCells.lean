import TimeSeries.Proofs.Selection

/-!
Cells as the columns of their tables keep them. Whatever statements make of a database, a cell is
what its column has made of one that was put into it, so that an integer stands only where it
compares with integers as they are.
-/
namespace TimeSeries

/-! ## Columns -/

/-- A cell that the column has made of one put into it. -/
def Column.Keeps (c : Column) (cell : Cell) : Prop := ∃ given, c.store given = cell

theorem Column.keeps_store (c : Column) (given : Cell) : c.Keeps (c.store given) := ⟨given, rfl⟩

/-- A column of numbers of rows keeps them. -/
def Column.IsSound (c : Column) : Prop :=
  c.numbering = true → ∀ v, c.store (.integer v) = .integer v

namespace Database.Declaration

end Database.Declaration

theorem forall₂_set {α β : Type} {R : α → β → Prop} {l : List α} {r : List β} (h : List.Forall₂ R l r)
    {i : Nat} {b : β} (hb : ∀ a, l[i]? = some a → R a b) : List.Forall₂ R l (r.set i b) := by
  induction h generalizing i with
  | nil => exact .nil
  | @cons a b' l r hab h ih =>
    cases i with
    | zero => exact .cons (hb a rfl) h
    | succ i => exact .cons hab (ih hb)

namespace Table

/-- Every cell of the table is one that its column keeps. -/
structure IsKept (t : Table) : Prop where
  columns : ∀ c ∈ t.columns, c.IsSound
  cells : ∀ row ∈ t.rows, List.Forall₂ Column.Keeps t.columns row

variable {t t' : Table} {row row' : Row}

theorem keeps_of_rowOf? {given : List (String × Cell)} (h : t.rowOf? given = some row) :
    List.Forall₂ Column.Keeps t.columns row := by
  unfold rowOf? at h
  split at h
  · cases h
    rw [List.forall₂_map_right_iff, List.forall₂_same]
    intro c _
    dsimp only
    split
    · exact c.keeps_store _
    · exact c.keeps_store _
  · cases h

theorem keeps_of_numbered? (hcolumns : ∀ c ∈ t.columns, c.IsSound)
    (hrow : List.Forall₂ Column.Keeps t.columns row) (h : t.numbered? row = some row') :
    List.Forall₂ Column.Keeps t.columns row' := by
  unfold numbered? at h
  split at h
  · cases h
    exact hrow
  · next position hposition =>
    split at h
    · obtain ⟨v, -, rfl⟩ := Option.map_eq_some_iff.1 h
      apply forall₂_set hrow
      intro c hc
      obtain ⟨hlt, hnumbering, -⟩ := List.findIdx?_eq_some_iff_getElem.1 hposition
      obtain rfl : t.columns[position] = c := by simpa [List.getElem?_eq_getElem hlt] using hc
      exact ⟨_, hcolumns _ (List.getElem_mem hlt) hnumbering v⟩
    · cases h
      exact hrow
    · cases h

theorem mem_place {r : Row} : r ∈ t.place row ↔ r = row ∨ r ∈ t.rows := by
  unfold place
  split
  · simp [or_comm]
  · rw [(Sorted.perm_insert _ _ _).mem_iff, List.mem_cons]

theorem IsKept.add (h : t.IsKept) (hrow : List.Forall₂ Column.Keeps t.columns row)
    (hadd : t.add? row = some t') : t'.IsKept := by
  obtain ⟨row', hnumbered, hadd⟩ := Option.bind_eq_some_iff.1 hadd
  split at hadd
  · cases hadd
    have hrow' := keeps_of_numbered? h.columns hrow hnumbered
    refine ⟨h.columns, fun r hr => ?_⟩
    have hr : r ∈ t.place row' := hr
    rcases mem_place.1 hr with rfl | hr
    · exact hrow'
    · exact h.cells r hr
  · cases hadd

end Table

/-! ## Databases -/

namespace Database

def IsKept (db : Database) : Prop := ∀ t ∈ db.tables, t.IsKept

variable {db db' : Database}

theorem IsKept.of_table? (h : db.IsKept) {name : String} {t : Table} (ht : db.table? name = some t) :
    t.IsKept := h t (List.mem_of_find?_eq_some ht)

theorem IsKept.setTable (h : db.IsKept) {t : Table} (ht : t.IsKept) : (db.setTable t).IsKept := by
  intro u hu
  obtain ⟨u', hu', rfl⟩ := List.mem_map.1 hu
  split
  · exact ht
  · exact h u' hu'

theorem IsKept.createTable (h : db.IsKept) {name : String} {columns : List Column}
    (hcolumns : ∀ c ∈ columns, c.IsSound) (hcreate : db.createTable? name columns = some db') :
    db'.IsKept := by
  unfold createTable? at hcreate
  split at hcreate
  · cases hcreate
  · cases hcreate
    intro t ht
    rcases List.mem_append.1 ht with ht | ht
    · exact h t ht
    · rw [List.mem_singleton.1 ht]
      exact ⟨hcolumns, nofun⟩

theorem IsKept.insert (h : db.IsKept) {name : String} {given : List (String × Cell)}
    (hinsert : db.insert? name given = some db') : db'.IsKept := by
  obtain ⟨table, htable, hinsert⟩ := Option.bind_eq_some_iff.1 hinsert
  obtain ⟨row, hrow, hinsert⟩ := Option.bind_eq_some_iff.1 hinsert
  obtain ⟨table', hadd, hinsert⟩ := Option.bind_eq_some_iff.1 hinsert
  cases hinsert
  exact h.setTable ((h.of_table? htable).add (Table.keeps_of_rowOf? hrow) hadd)

end Database
end TimeSeries
