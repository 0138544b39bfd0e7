import TimeSeries.Proofs.Reachability

/-!
Evaluating with one path that is pushed and popped. Every return leaves the path as it was, and
comes to what is evaluated below that path as an argument.
-/
namespace TimeSeries.Catalogue

variable {c : Catalogue} {source : Source} {method : Method} {query : Query}

namespace Walk.Below

theorem foldl_note {path : List SeriesId} (reads : List Read) (w : Below path) :
    reads.foldl note w = ⟨⟨path, w.val.reads ++ reads⟩, rfl⟩ := by
  induction reads generalizing w with
  | nil =>
    obtain ⟨w, rfl⟩ := w
    simp
  | cons read reads ih =>
    rw [List.foldl_cons, ih]
    simp [note]

end Walk.Below

/-- Pushing an identifier, answering and popping it leaves nothing but the reads. -/
theorem noted_push_pop {path : List SeriesId} {id : SeriesId} (x : Traced Read (List Observation))
    (w : Walk.Below path) : (x.noted (@Walk.Below.note (id :: path)) (w.push id)).2.pop =
      x.reads.foldl Walk.Below.note w := by
  rw [Traced.noted, Walk.Below.foldl_note, Walk.Below.foldl_note]
  rfl

/-- On the way down, what is asked for with the path of the walk is what is evaluated below it. -/
theorem walk_eq_noted (path : List SeriesId) (id : SeriesId) (w : Walk.Below path) :
    c.walk source method query path id w =
      (c.evaluateBelow source method query path id).noted Walk.Below.note w := by
  induction path, id using below_induction c with
  | step path id ih =>
  obtain ⟨⟨path, reads⟩, rfl⟩ := w
  by_cases hid : id ∈ path
  · rw [walk, dif_pos hid, evaluateBelow_of_mem hid]
    rfl
  · rw [walk, dif_neg hid]
    dsimp only
    split
    · next e hd =>
      rw [evaluateBelow_of_not_mem hid, Traced.bind_of_error hd]
      rfl
    · next series hd =>
      rw [evaluateBelow_of_not_mem hid, Traced.noted, Traced.bind_of_ok hd, List.foldl_append]
      cases series with
      | primitive binding => exact Prod.ext rfl (noted_push_pop _ _)
      | composed comp =>
        let resolve (k : SeriesId) : Stateful (Walk.Below (id :: path)) (List Observation) :=
          ExceptT.adapt (.constituent k) fun below =>
            c.walk source method query (id :: path) k below
        have hresolve : comp.combineWith resolve =
            (comp.combineWith (c.resolveBelow source method query (id :: path))).noted
              Walk.Below.note := by
          rw [Composition.noted_combineWith]
          apply Composition.combineWith_congr
          intro k hk
          funext below
          have hbelow := ih hid k.id ⟨comp, definition_of_readDefinition hd, k, hk, rfl⟩ below
          show ((c.walk source method query (id :: path) k.id below).1.mapError
              (Error.constituent k.id),
            (c.walk source method query (id :: path) k.id below).2) = _
          rw [hbelow]
          rfl
        show ((comp.combineWith resolve _).1, (comp.combineWith resolve _).2.pop) = _
        rw [hresolve]
        exact Prod.ext rfl (noted_push_pop _ _)

/-- Every return, an answer or a failure, leaves the path as it was and adds the reads that are made
below it. -/
theorem walk_eq (path : List SeriesId) (id : SeriesId) (w : Walk.Below path) :
    let answer := c.evaluateBelow source method query path id
    c.walk source method query path id w =
      (answer.outcome, ⟨⟨path, w.val.reads ++ answer.reads⟩, rfl⟩) := by
  rw [walk_eq_noted, Traced.noted, Walk.Below.foldl_note]

/-- An evaluation is a walk that starts with nothing on its path. -/
theorem evaluate_eq_walk (id : SeriesId) :
    let (outcome, left) := c.walk source method query [] id ⟨⟨[], []⟩, rfl⟩
    c.evaluate source id method query = ⟨left.val.reads, outcome⟩ ∧ left.val.path = [] := by
  rw [walk_eq]
  exact ⟨rfl, rfl⟩

end TimeSeries.Catalogue
