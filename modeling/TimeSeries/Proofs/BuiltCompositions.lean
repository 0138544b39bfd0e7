import Mathlib.Data.List.Pairwise
import TimeSeries.Proofs.MapEntries
import TimeSeries.Proofs.Weighting

/-!
Compositions that are built from weights: which lists of weights are taken, and what is stored of
them. Identifiers are in ascending order once stored, so one that is given twice stands twice in a
row.
-/
namespace TimeSeries.Composition

/-- The constituents that weights name, in the order they are stored in. -/
def inOrder (weights : List (SeriesId × Value)) : List Constituent :=
  Sorted.sort (fun a b => decide (a.id ≤ b.id)) (weights.map fun (id, weight) => ⟨id, weight⟩)

theorem inOrder_perm (weights : List (SeriesId × Value)) :
    (inOrder weights).Perm (weights.map fun (id, weight) => ⟨id, weight⟩) :=
  Sorted.perm_sort _ _

theorem inOrder_ascending (weights : List (SeriesId × Value)) :
    (inOrder weights).Pairwise (·.id ≤ ·.id) := by
  have hsorted : (inOrder weights).Pairwise fun a b => decide (a.id ≤ b.id) = true := by
    apply Sorted.pairwise_sort
    · intro a b c hab hbc
      exact decide_eq_true (Std.le_trans (of_decide_eq_true hab) (of_decide_eq_true hbc))
    · intro a b
      simpa using Std.le_total
  exact hsorted.imp of_decide_eq_true

@[simp] theorem inOrder_eq_nil_iff {weights : List (SeriesId × Value)} :
    inOrder weights = [] ↔ weights = [] := by
  constructor
  · intro h
    have hperm := inOrder_perm weights
    rw [h] at hperm
    exact List.map_eq_nil_iff.1 hperm.nil_eq.symm
  · rintro rfl
    rfl

theorem ids_inOrder_perm (weights : List (SeriesId × Value)) :
    ((inOrder weights).map (·.id)).Perm (weights.map (·.1)) := by
  have h := (inOrder_perm weights).map (·.id)
  rwa [List.map_map] at h

/-- In ascending order an identifier is repeated only if it stands twice in a row. -/
theorem notMem_of_ne_head {a b : Constituent} {l : List Constituent}
    (h : (a :: b :: l).Pairwise (·.id ≤ ·.id)) (hab : a.id ≠ b.id) :
    a.id ∉ (b :: l).map (·.id) := by
  obtain ⟨ha, hl⟩ := List.pairwise_cons.1 h
  rw [List.mem_map]
  rintro ⟨k, hk, hka⟩
  -- Everything after `b` follows it, so it can equal `a` only if `b` does.
  apply hab
  apply Std.le_antisymm (ha b List.mem_cons_self)
  rcases List.mem_cons.1 hk with rfl | hk
  · exact Std.le_of_eq hka
  · exact hka ▸ (List.pairwise_cons.1 hl).1 k hk

/-- In ascending order no identifier stands twice in a row exactly if none is repeated. -/
theorem firstRepeated_eq_none_iff {l : List Constituent} (h : l.Pairwise (·.id ≤ ·.id)) :
    firstRepeated l = none ↔ (l.map (·.id)).Nodup := by
  induction l with
  | nil => simp [firstRepeated]
  | cons a l ih =>
    cases l with
    | nil => simp [firstRepeated]
    | cons b l =>
      rw [firstRepeated, List.map_cons, List.nodup_cons]
      split
      · next hab => simp [hab]
      · next hab =>
        rw [ih (List.pairwise_cons.1 h).2]
        exact (and_iff_right (notMem_of_ne_head h hab)).symm

/-- The least of the identifiers that are repeated. -/
def IsLeastRepeated (ids : List SeriesId) (id : SeriesId) : Prop :=
  2 ≤ ids.count id ∧ ∀ other, 2 ≤ ids.count other → id ≤ other

theorem IsLeastRepeated.unique {ids : List SeriesId} {id id' : SeriesId}
    (h : IsLeastRepeated ids id) (h' : IsLeastRepeated ids id') : id = id' :=
  Std.le_antisymm (h.2 id' h'.1) (h'.2 id h.1)

/-- In ascending order the first identifier that stands twice in a row is the least one repeated. -/
theorem firstRepeated_eq_some_iff {l : List Constituent} (h : l.Pairwise (·.id ≤ ·.id))
    {id : SeriesId} : firstRepeated l = some id ↔ IsLeastRepeated (l.map (·.id)) id := by
  induction l with
  | nil => simp [firstRepeated, IsLeastRepeated]
  | cons a l ih =>
    cases l with
    | nil =>
      have hcount (other : SeriesId) : ¬ 2 ≤ [a.id].count other := by
        have := List.count_le_length (a := other) (l := [a.id])
        simp only [List.length_singleton] at this
        omega
      simp [firstRepeated, IsLeastRepeated, hcount]
    | cons b l =>
      obtain ⟨ha, hl⟩ := List.pairwise_cons.1 h
      rw [firstRepeated]
      split
      · next hab =>
        have hleast : IsLeastRepeated ((a :: b :: l).map (·.id)) a.id := by
          refine ⟨by simp [hab], fun other hother => ?_⟩
          obtain ⟨k, hk, rfl⟩ := List.mem_map.1 (List.count_pos_iff.1 (Nat.lt_of_lt_of_le
            Nat.zero_lt_two hother))
          rcases List.mem_cons.1 hk with rfl | hk
          · exact Std.le_refl _
          · exact ha k hk
        rw [Option.some.injEq]
        exact ⟨fun hid => hid ▸ hleast, hleast.unique⟩
      · next hab =>
        have hcount (other : SeriesId) : 2 ≤ ((a :: b :: l).map (·.id)).count other ↔
            2 ≤ ((b :: l).map (·.id)).count other := by
          have hnone := List.count_eq_zero.2 (notMem_of_ne_head h hab)
          rw [List.map_cons, List.count_cons]
          split
          · next heq =>
            rw [beq_iff_eq] at heq
            subst heq
            omega
          · simp
        rw [ih hl]
        simp only [IsLeastRepeated, hcount]

/-! ## What is built -/

/-- The constituents that weights name, strictly ascending by identifier. -/
structure Lists (weights : List (SeriesId × Value)) (constituents : List Constituent) : Prop where
  perm : constituents.Perm (weights.map fun (id, weight) => ⟨id, weight⟩)
  ascending : constituents.Pairwise (·.id < ·.id)

/-- What building a composition comes to, as a judgement about the weights alone. -/
inductive Builds (weights : List (SeriesId × Value)) : Except Error Composition → Prop
  | empty : weights = [] → Builds weights (.error .noConstituents)
  | repeated {id} : IsLeastRepeated (weights.map (·.1)) id →
      Builds weights (.error (.duplicateConstituent id))
  /-- Some sum of the first weights, in the order of the identifiers, leaves the range. -/
  | tooLarge {constituents} : weights ≠ [] → Lists weights constituents →
      ¬ SumsFit (constituents.map (·.weight.toInt)) → Builds weights (.error .overflow)
  | built {c} : weights ≠ [] → Lists weights c.constituents →
      SumsFit (c.constituents.map (·.weight.toInt)) →
      c.totalWeight.toInt = (c.constituents.map (·.weight.toInt)).sum → Builds weights (.ok c)

section Building
variable {weights weights' : List (SeriesId × Value)} {constituents : List Constituent}

theorem lists_inOrder (h : (weights.map (·.1)).Nodup) : Lists weights (inOrder weights) := by
  refine ⟨inOrder_perm weights, ?_⟩
  have hdiffer := List.pairwise_map.1 ((ids_inOrder_perm weights).nodup_iff.2 h)
  apply ((inOrder_ascending weights).and hdiffer).imp
  rintro a b ⟨hab, hne⟩
  exact Std.lt_of_le_of_ne hab hne

theorem Lists.nodup (h : Lists weights constituents) : (weights.map (·.1)).Nodup := by
  have hids := h.perm.map (·.id)
  rw [List.map_map] at hids
  apply hids.nodup_iff.1
  apply List.pairwise_map.2
  apply h.ascending.imp
  intro a b hlt heq
  rw [heq] at hlt
  exact Std.lt_irrefl hlt

theorem Lists.eq_inOrder (h : Lists weights constituents) : constituents = inOrder weights := by
  have h' := lists_inOrder h.nodup
  apply eq_of_ascending_by Constituent.id h.ascending h'.ascending
  intro k
  exact (h.perm.trans h'.perm.symm).mem_iff

theorem lists_iff : Lists weights constituents ↔
    (weights.map (·.1)).Nodup ∧ constituents = inOrder weights := by
  constructor
  · intro h
    exact ⟨h.nodup, h.eq_inOrder⟩
  · rintro ⟨hnodup, rfl⟩
    exact lists_inOrder hnodup

theorem ofWeights_of_repeated {id : SeriesId} (h : IsLeastRepeated (weights.map (·.1)) id) :
    ofWeights weights = .error (.duplicateConstituent id) := by
  have hfirst : firstRepeated (inOrder weights) = some id := by
    rw [firstRepeated_eq_some_iff (inOrder_ascending weights)]
    simpa only [IsLeastRepeated, (ids_inOrder_perm weights).count_eq] using h
  rw [ofWeights]
  dsimp only
  rw [← inOrder, hfirst]
  cases hsorted : inOrder weights with
  | nil =>
    rw [hsorted] at hfirst
    cases hfirst
  | cons k rest => rfl

theorem ofWeights_of_nodup (hne : weights ≠ []) (hnodup : (weights.map (·.1)).Nodup) :
    ofWeights weights = (sum ((inOrder weights).map (·.weight))).map (⟨inOrder weights, ·⟩) := by
  have hfirst : firstRepeated (inOrder weights) = none := by
    rwa [firstRepeated_eq_none_iff (inOrder_ascending weights),
      (ids_inOrder_perm weights).nodup_iff]
  rw [ofWeights]
  dsimp only
  rw [← inOrder, hfirst]
  cases hsorted : inOrder weights with
  | nil => exact absurd (inOrder_eq_nil_iff.1 hsorted) hne
  | cons k rest => cases sum ((k :: rest).map (·.weight)) <;> rfl

theorem sum_weights_eq_ok_iff {total : Value} : sum (constituents.map (·.weight)) = .ok total ↔
    SumsFit (constituents.map (·.weight.toInt)) ∧
      total.toInt = (constituents.map (·.weight.toInt)).sum := by
  rw [sum_eq_ok_iff, List.map_map]
  rfl

theorem sum_weights_eq_error_iff {e : Error} : sum (constituents.map (·.weight)) = .error e ↔
    e = .overflow ∧ ¬ SumsFit (constituents.map (·.weight.toInt)) := by
  rw [sum_eq_error_iff, List.map_map]
  rfl

theorem ofWeights_eq_of_builds {x : Except Error Composition} (h : Builds weights x) :
    ofWeights weights = x := by
  cases h with
  | empty hnil =>
    subst hnil
    rfl
  | repeated hid => exact ofWeights_of_repeated hid
  | tooLarge hne hlists hnot =>
    rw [hlists.eq_inOrder] at hnot
    rw [ofWeights_of_nodup hne hlists.nodup, sum_weights_eq_error_iff.2 ⟨rfl, hnot⟩]
    rfl
  | @built c hne hlists hfit htotal =>
    obtain ⟨constituents, total⟩ := c
    obtain rfl := hlists.eq_inOrder
    rw [ofWeights_of_nodup hne hlists.nodup, sum_weights_eq_ok_iff.2 ⟨hfit, htotal⟩]
    rfl

theorem exists_builds (weights : List (SeriesId × Value)) : ∃ x, Builds weights x := by
  by_cases hne : weights = []
  · exact ⟨_, .empty hne⟩
  · by_cases hnodup : (weights.map (·.1)).Nodup
    · have hlists := lists_inOrder hnodup
      cases hsum : sum ((inOrder weights).map (·.weight)) with
      | ok total =>
        obtain ⟨hfit, htotal⟩ := sum_weights_eq_ok_iff.1 hsum
        exact ⟨.ok ⟨inOrder weights, total⟩, .built hne hlists hfit htotal⟩
      | error e => exact ⟨_, .tooLarge hne hlists (sum_weights_eq_error_iff.1 hsum).2⟩
    · have hascending := inOrder_ascending weights
      rw [← (ids_inOrder_perm weights).nodup_iff, ← firstRepeated_eq_none_iff hascending] at hnodup
      obtain ⟨id, hid⟩ := Option.ne_none_iff_exists'.1 hnodup
      rw [firstRepeated_eq_some_iff hascending] at hid
      simp only [IsLeastRepeated, (ids_inOrder_perm weights).count_eq] at hid
      exact ⟨_, .repeated hid⟩

theorem ofWeights_eq_iff_builds {x : Except Error Composition} :
    ofWeights weights = x ↔ Builds weights x := by
  constructor
  · rintro rfl
    obtain ⟨x, hx⟩ := exists_builds weights
    rw [ofWeights_eq_of_builds hx]
    exact hx
  · exact ofWeights_eq_of_builds

/-- A composition is built exactly from weights that name some constituent, none of them twice,
and whose running totals in ascending order of the identifiers fit. -/
theorem ofWeights_eq_ok_iff {c : Composition} :
    ofWeights weights = .ok c ↔ weights ≠ [] ∧ (weights.map (·.1)).Nodup ∧
      c.constituents = inOrder weights ∧ SumsFit ((inOrder weights).map (·.weight.toInt)) ∧
      c.totalWeight.toInt = ((inOrder weights).map (·.weight.toInt)).sum := by
  rw [ofWeights_eq_iff_builds]
  constructor
  · intro h
    cases h with
    | built hne hlists hfit htotal =>
      rw [hlists.eq_inOrder] at hfit htotal
      exact ⟨hne, hlists.nodup, hlists.eq_inOrder, hfit, htotal⟩
  · rintro ⟨hne, hnodup, hlist, hfit, htotal⟩
    rw [← hlist] at hfit htotal
    exact .built hne (lists_iff.2 ⟨hnodup, hlist⟩) hfit htotal

theorem exists_ofWeights_iff :
    (∃ c, ofWeights weights = .ok c) ↔ weights ≠ [] ∧ (weights.map (·.1)).Nodup ∧
      SumsFit ((inOrder weights).map (·.weight.toInt)) := by
  constructor
  · rintro ⟨c, hc⟩
    obtain ⟨hne, hnodup, -, hfit, -⟩ := ofWeights_eq_ok_iff.1 hc
    exact ⟨hne, hnodup, hfit⟩
  · rintro ⟨hne, hnodup, hfit⟩
    -- The sum of all weights is the last of the running totals.
    have hall := hfit ((inOrder weights).map (·.weight.toInt)).length
    rw [List.take_length] at hall
    obtain ⟨total, htotal⟩ := exists_fitting_iff.2 hall
    refine ⟨⟨inOrder weights, total⟩, ofWeights_eq_ok_iff.2 ⟨hne, hnodup, rfl, hfit, ?_⟩⟩
    exact fitting_eq_ok_iff.1 htotal

theorem Lists.of_perm (h : Lists weights constituents) (hperm : weights'.Perm weights) :
    Lists weights' constituents := ⟨h.perm.trans (hperm.map _).symm, h.ascending⟩

theorem Builds.of_perm {x : Except Error Composition} (h : Builds weights x)
    (hperm : weights'.Perm weights) : Builds weights' x := by
  have hne (hne : weights ≠ []) : weights' ≠ [] := by
    rintro rfl
    exact hne hperm.nil_eq.symm
  cases h with
  | empty hnil =>
    subst hnil
    exact .empty hperm.eq_nil
  | repeated hid =>
    apply Builds.repeated
    simpa only [IsLeastRepeated, (hperm.map (·.1)).count_eq] using hid
  | tooLarge h hlists hnot => exact .tooLarge (hne h) (hlists.of_perm hperm) hnot
  | built h hlists hfit htotal => exact .built (hne h) (hlists.of_perm hperm) hfit htotal

/-- The order in which weights are given does not matter, not even for the failure. -/
theorem ofWeights_perm (hperm : weights'.Perm weights) : ofWeights weights' = ofWeights weights :=
  ofWeights_eq_iff_builds.2 ((ofWeights_eq_iff_builds.1 rfl).of_perm hperm)

end Building

end TimeSeries.Composition
