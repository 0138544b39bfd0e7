import Mathlib.Data.List.Nodup
import TimeSeries.Proofs.BuiltCompositions
import TimeSeries.Proofs.MapEntries

/-!
Weights given as metadata. An entry under a key that ends in `_id` names a constituent, and the rest
of the key leads to its weight. Keys decide nothing but which weight belongs to which identifier: what
is built is what the pairs alone come to.
-/
namespace TimeSeries.Composition

theorem stem?_eq_some_iff {suffix text stem : List Char} :
    stem? suffix text = some stem ↔ text = stem ++ suffix := by
  rw [stem?]
  constructor
  · intro h
    split at h
    · next hsuffix =>
      obtain ⟨rest, rfl⟩ := List.isSuffixOf_iff_suffix.1 hsuffix
      simpa [eq_comm] using h
    · cases h
  · rintro rfl
    rw [if_pos (List.isSuffixOf_iff_suffix.2 ⟨stem, rfl⟩)]
    simp

/-- What leads from the key of an identifier to its weight. -/
def stemOf? (key : String) : Option String :=
  (stem? "_id".toList key.toList).map String.ofList

theorem stemOf?_eq_some_iff {key stem : String} : stemOf? key = some stem ↔ key = stem ++ "_id" := by
  simp only [stemOf?, Option.map_eq_some_iff, stem?_eq_some_iff]
  constructor
  · rintro ⟨cs, hkey, rfl⟩
    rw [← String.toList_inj, String.toList_append, String.toList_ofList, hkey]
  · rintro rfl
    exact ⟨stem.toList, String.toList_append, String.ofList_toList⟩

/-- The weight that metadata gives for a stem. -/
def weightAt? (metadata : Metadata) (stem : String) : Option Value :=
  (metadata.find? (stem ++ "_weight")).bind Decimal.value?

/-- The weight that metadata gives beside an identifier, if the entry names one. -/
def weightBeside? (metadata : Metadata) (e : String × String) : Option (SeriesId × Value) :=
  (stemOf? e.1).bind fun stem => (weightAt? metadata stem).map fun weight => (e.2, weight)

/-- An entry that names no identifier is passed over, and one that does needs a weight. -/
theorem weightOf?_eq_ok {metadata : Metadata} {key id : String}
    (h : ∀ stem, stemOf? key = some stem → (weightAt? metadata stem).isSome) :
    weightOf? metadata key id = .ok (weightBeside? metadata (key, id)) := by
  rw [stemOf?] at h
  rw [weightOf?, weightBeside?, stemOf?]
  cases hstem : stem? "_id".toList key.toList with
  | none => rfl
  | some stem =>
    rw [hstem] at h
    obtain ⟨weight, hweight⟩ := Option.isSome_iff_exists.1 (h _ rfl)
    rw [weightAt?] at hweight
    simp only [Option.map_some, Option.bind_some, weightAt?, hweight]

/-- A weight that belongs to an identifier, under a key of its own. -/
structure NamedWeight where
  key : String
  id : SeriesId
  weight : Value

namespace NamedWeight

def pair (n : NamedWeight) : SeriesId × Value := (n.id, n.weight)

def idEntry (n : NamedWeight) : String × String := (n.key ++ "_id", n.id)

def weightEntry (n : NamedWeight) : String × String :=
  (n.key ++ "_weight", Decimal.ofValue n.weight)

/-- The metadata that gives the weights, with further entries. -/
def metadata (named : List NamedWeight) (further : List (String × String)) : Metadata :=
  .ofList (named.flatMap (fun n => [n.idEntry, n.weightEntry]) ++ further)

end NamedWeight

/-- Metadata gives these weights, and no identifier beside theirs. -/
structure Gives (metadata : Metadata) (named : List NamedWeight) : Prop where
  id_eq : ∀ n ∈ named, metadata.find? (n.key ++ "_id") = some n.id
  weight_eq : ∀ n ∈ named, weightAt? metadata n.key = some n.weight
  only : ∀ stem id, metadata.find? (stem ++ "_id") = some id → ∃ n ∈ named, n.key = stem

section Gives
variable {metadata : Metadata} {named : List NamedWeight} (h : Gives metadata named)
include h

theorem Gives.weightBeside?_idEntry {n : NamedWeight} (hn : n ∈ named) :
    weightBeside? metadata n.idEntry = some n.pair := by
  have hstem : stemOf? n.idEntry.1 = some n.key := stemOf?_eq_some_iff.2 rfl
  rw [weightBeside?, hstem, Option.bind_some, h.weight_eq n hn]
  rfl

/-- The entries that name an identifier are those of the weights. -/
theorem Gives.exists_idEntry_iff {e : String × String} :
    (∃ n ∈ named, n.idEntry = e) ↔ e ∈ metadata.toList ∧ (stemOf? e.1).isSome = true := by
  obtain ⟨key, id⟩ := e
  rw [← SortedMap.find?_eq_some_iff]
  constructor
  · rintro ⟨n, hn, he⟩
    obtain ⟨rfl, rfl⟩ := Prod.mk.inj he
    exact ⟨h.id_eq n hn, Option.isSome_of_eq_some (stemOf?_eq_some_iff.2 rfl)⟩
  · rintro ⟨hfind, hstem⟩
    obtain ⟨stem, hstem⟩ := Option.isSome_iff_exists.1 hstem
    obtain rfl := stemOf?_eq_some_iff.1 hstem
    obtain ⟨n, hn, rfl⟩ := h.only _ _ hfind
    rw [h.id_eq n hn] at hfind
    exact ⟨n, hn, Prod.ext rfl (Option.some.inj hfind)⟩

theorem Gives.mapM_weightOf? :
    metadata.toList.mapM (fun (key, id) => weightOf? metadata key id) =
      .ok (metadata.toList.map (weightBeside? metadata)) := by
  rw [mapM_eq_ok_iff, List.forall₂_map_right_iff, List.forall₂_same]
  rintro ⟨key, id⟩ he
  apply weightOf?_eq_ok
  intro stem hstem
  obtain ⟨n, hn, hentry⟩ := h.exists_idEntry_iff.2 ⟨he, Option.isSome_of_eq_some hstem⟩
  obtain ⟨rfl, rfl⟩ := Prod.mk.inj hentry
  obtain rfl := (String.append_left_inj "_id").1 (stemOf?_eq_some_iff.1 hstem)
  exact Option.isSome_of_eq_some (h.weight_eq n hn)

variable (hkeys : (named.map (·.key)).Nodup)
include hkeys

/-- In the order of the keys the entries name the weights, each of them once. -/
theorem Gives.weights_perm :
    (metadata.toList.filterMap (weightBeside? metadata)).Perm (named.map (·.pair)) := by
  have hentries : (named.map (·.idEntry)).Nodup := by
    have hmap := hkeys.map (f := (· ++ "_id")) fun a b => (String.append_left_inj "_id").1
    apply List.Nodup.of_map Prod.fst
    rwa [List.map_map] at *
  have hperm : (metadata.toList.filter fun e => (stemOf? e.1).isSome).Perm
      (named.map (·.idEntry)) := by
    rw [List.perm_ext_iff_of_nodup (metadata.nodup_toList.filter _) hentries]
    intro e
    rw [List.mem_filter, List.mem_map, h.exists_idEntry_iff]
  -- An entry that names no identifier brings no weight along.
  have hfilter : metadata.toList.filterMap (weightBeside? metadata) =
      (metadata.toList.filter fun e => (stemOf? e.1).isSome).filterMap
        (weightBeside? metadata) := by
    rw [List.filterMap_filter]
    apply List.filterMap_congr
    intro e _
    cases hstem : stemOf? e.1 <;> simp [weightBeside?, hstem]
  have hpairs : (named.map (·.idEntry)).filterMap (weightBeside? metadata) =
      named.map (·.pair) := by
    rw [List.filterMap_map, ← List.filterMap_eq_map]
    apply List.filterMap_congr
    intro n hn
    exact h.weightBeside?_idEntry hn
  rw [hfilter, ← hpairs]
  exact hperm.filterMap _

theorem Gives.ofMetadata_eq : ofMetadata metadata = ofWeights (named.map (·.pair)) := by
  rw [ofMetadata, h.mapM_weightOf?, ok_bind, List.filterMap_map]
  exact ofWeights_perm (h.weights_perm hkeys)

end Gives

theorem weight_ne_id (key stem : String) : key ++ "_weight" ≠ stem ++ "_id" := by
  intro heq
  have hlast := congrArg (fun s => s.toList.getLast?) heq
  simp at hlast

/-- Further entries name no identifier and give none of the weights again. -/
def LeavesAlone (named : List NamedWeight) (further : List (String × String)) : Prop :=
  ∀ e ∈ further, (∀ stem, e.1 ≠ stem ++ "_id") ∧ ∀ n ∈ named, e.1 ≠ n.key ++ "_weight"

section Metadata
variable {named : List NamedWeight} {further : List (String × String)}
  (hfurther : LeavesAlone named further)
include hfurther

/-- An entry under the key of an identifier is that of a weight. -/
theorem exists_of_id_key {e : String × String} {stem : String}
    (he : e ∈ named.flatMap (fun n => [n.idEntry, n.weightEntry]) ++ further)
    (hkey : e.1 = stem ++ "_id") : ∃ n ∈ named, n.key = stem ∧ e = n.idEntry := by
  rcases List.mem_append.1 he with he | he
  · obtain ⟨n, hn, he⟩ := List.mem_flatMap.1 he
    simp only [List.mem_cons, List.not_mem_nil, or_false] at he
    rcases he with rfl | rfl
    · exact ⟨n, hn, (String.append_left_inj "_id").1 hkey, rfl⟩
    · exact absurd hkey (weight_ne_id n.key stem)
  · exact absurd hkey ((hfurther e he).1 stem)

theorem exists_of_weight_key {e : String × String} {n : NamedWeight} (hn : n ∈ named)
    (he : e ∈ named.flatMap (fun n => [n.idEntry, n.weightEntry]) ++ further)
    (hkey : e.1 = n.key ++ "_weight") : ∃ n' ∈ named, n'.key = n.key ∧ e = n'.weightEntry := by
  rcases List.mem_append.1 he with he | he
  · obtain ⟨n', hn', he⟩ := List.mem_flatMap.1 he
    simp only [List.mem_cons, List.not_mem_nil, or_false] at he
    rcases he with rfl | rfl
    · exact absurd hkey.symm (weight_ne_id n.key n'.key)
    · exact ⟨n', hn', (String.append_left_inj "_weight").1 hkey, rfl⟩
  · exact absurd hkey ((hfurther e he).2 n hn)

theorem gives_metadata (hkeys : (named.map (·.key)).Nodup) :
    Gives (NamedWeight.metadata named further) named := by
  have hone {n n' : NamedWeight} (hn : n ∈ named) (hn' : n' ∈ named) (heq : n'.key = n.key) :
      n' = n := List.inj_on_of_nodup_map hkeys hn' hn heq
  refine ⟨fun n hn => ?_, fun n hn => ?_, fun stem id hfind => ?_⟩
  · apply SortedMap.find?_ofList_of_mem
    · exact List.mem_append_left _ (List.mem_flatMap.2 ⟨n, hn, List.mem_cons_self⟩)
    · intro e he hkey
      obtain ⟨n', hn', heq, rfl⟩ := exists_of_id_key hfurther he hkey
      rw [hone hn hn' heq]
      rfl
  · have hfind : (NamedWeight.metadata named further).find? (n.key ++ "_weight") =
        some (Decimal.ofValue n.weight) := by
      apply SortedMap.find?_ofList_of_mem
      · exact List.mem_append_left _ (List.mem_flatMap.2 ⟨n, hn, by simp [NamedWeight.weightEntry]⟩)
      · intro e he hkey
        obtain ⟨n', hn', heq, rfl⟩ := exists_of_weight_key hfurther hn he hkey
        rw [hone hn hn' heq]
        rfl
    rw [weightAt?, hfind, Option.bind_some, Decimal.value?_ofValue]
  · obtain ⟨e, he, hkey⟩ := SortedMap.mem_keys_ofList.1 (SortedMap.mem_keys_iff.2 ⟨id, hfind⟩)
    obtain ⟨n, hn, heq, -⟩ := exists_of_id_key hfurther he hkey
    exact ⟨n, hn, heq⟩

end Metadata

/-- Building a composition comes to what the weights say and nothing else: neither the order in
which they are given matters, nor, in metadata, the keys they are given under or what else there
is. -/
theorem ofWeights_builds :
    (∀ weights x, ofWeights weights = x ↔ Builds weights x) ∧
      (∀ weights weights', weights'.Perm weights → ofWeights weights' = ofWeights weights) ∧
      ∀ named further, (named.map NamedWeight.key).Nodup → LeavesAlone named further →
        ofMetadata (NamedWeight.metadata named further) =
          ofWeights (named.map NamedWeight.pair) := by
  refine ⟨fun _ _ => ofWeights_eq_iff_builds, fun _ _ => ofWeights_perm, ?_⟩
  intro named further hkeys hfurther
  exact (gives_metadata hfurther hkeys).ofMetadata_eq hkeys

/-- Keys that look like those of other weights, one of them empty, and a note beside them. -/
theorem ofWeights_builds_nested_keys :
    let named : List NamedWeight := [⟨"", "hotel", 9⟩, ⟨"a_id", "corn", -1⟩, ⟨"a_weight", "rye", 3⟩]
    let further : List (String × String) := [("a_weight", "heavy"), ("note", "x")]
    let c : Composition := ⟨[⟨"corn", -1⟩, ⟨"hotel", 9⟩, ⟨"rye", 3⟩], 11⟩
    (named.map NamedWeight.key).Nodup ∧ LeavesAlone named further ∧
      ofMetadata (NamedWeight.metadata named further) = .ok c ∧
      Builds [("rye", 3), ("corn", -1), ("hotel", 9)] (.ok c) := by
  intro named further c
  obtain ⟨hbuilds, hperm, hmetadata⟩ := ofWeights_builds
  have hkeys : (named.map NamedWeight.key).Nodup := by decide
  have hnot {key : String} (hnone : stemOf? key = none) (stem : String) : key ≠ stem ++ "_id" := by
    intro heq
    rw [stemOf?_eq_some_iff.2 heq] at hnone
    cases hnone
  have hfurther : LeavesAlone named further :=
    List.forall_mem_cons.2 ⟨⟨hnot (by decide), by decide⟩,
      List.forall_mem_singleton.2 ⟨hnot (by decide), by decide⟩⟩
  have hc : ofWeights [("rye", 3), ("corn", -1), ("hotel", 9)] = .ok c := by decide +kernel
  refine ⟨hkeys, hfurther, ?_, (hbuilds _ _).1 hc⟩
  rw [hmetadata named further hkeys hfurther, ← hc]
  exact hperm _ _ (by decide)

end TimeSeries.Composition
