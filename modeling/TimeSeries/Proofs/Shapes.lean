import TimeSeries.Json.Shape
import TimeSeries.Proofs.DateText
import TimeSeries.Proofs.JsonTree
import TimeSeries.Proofs.Traversal

/-!
Values of a shape, as they are written, are read by the shape as they are: a record in the order of
its fields, a tagged value with the tag first.
-/
namespace TimeSeries.Json

open Node (enter closing key readChoice readName)

/-- The value is read by the shape as itself, from a depth on. -/
def Shape.Accepts (shape : Shape) (levels : Nat) (j : Json) : Prop :=
  ∀ depth, levels ≤ depth → shape.read depth j.node = .ok j

theorem lookup_of_mem {α β : Type} [BEq α] [LawfulBEq α] {l : List (α × β)}
    (hnodup : (l.map (·.1)).Nodup) {k : α} {v : β} (h : (k, v) ∈ l) : l.lookup k = some v := by
  induction l with
  | nil => cases h
  | cons e l ih =>
    obtain ⟨k', v'⟩ := e
    obtain ⟨hnot, hnodup⟩ := List.nodup_cons.1 hnodup
    rw [List.lookup_cons]
    rcases List.mem_cons.1 h with heq | h
    · cases heq
      simp
    · have hne : k ≠ k' := fun heq => hnot (heq ▸ List.mem_map.2 ⟨(k, v), h, rfl⟩)
      have hbeq : (k == k') = false := by simpa using hne
      rw [hbeq]
      exact ih hnodup h

theorem lookup_eq_none {α β : Type} [BEq α] [LawfulBEq α] {l : List (α × β)} {k : α}
    (h : k ∉ l.map (·.1)) : l.lookup k = none := by
  rw [List.lookup_eq_none_iff]
  intro e he
  rw [bne_iff_ne]
  rintro rfl
  exact h (List.mem_map_of_mem he)

theorem enter_succ (depth : Nat) : enter (depth + 1) = .ok depth := rfl

theorem accepts_string (s : String) : Shape.string.Accepts 0 (.string s) := fun _ _ => rfl

theorem accepts_int64 (v : Value) : Shape.int64.Accepts 0 (.integer v.toInt) := by
  intro depth _
  show Node.readInt64 (.integer v.toInt) = .ok (.integer v.toInt)
  rw [Node.readInt64, Value.ofInt?_toInt]
  rfl

theorem accepts_date {d : Date} (h : d.IsFourDigit) : Shape.date.Accepts 0 (.string d.text) := by
  intro depth _
  have hname : Node.readString (.string d.text) = .ok d.text := rfl
  show Node.readDate (.string d.text) = .ok (.string d.text)
  rw [Node.readDate, hname, ok_bind, Date.ofLoose?_text h]
  rfl

theorem accepts_choice {names : List String} {name : String} (h : name ∈ names) :
    (Shape.choice names).Accepts 0 (.string name) := by
  intro depth _
  show (readName names name).map Json.string = .ok (.string name)
  rw [readName, if_pos h]
  rfl

theorem accepts_list {item : Shape} {levels : Nat} {items : List Json}
    (h : ∀ j ∈ items, item.Accepts levels j) :
    (Shape.list item).Accepts (levels + 1) (.array items) := by
  intro depth hdepth
  obtain ⟨depth, rfl⟩ : ∃ d, depth = d + 1 := ⟨depth - 1, by omega⟩
  have hitems : (items.map node).mapM (fun i => item.read depth i) = .ok items := by
    rw [mapM_eq_ok_iff, List.forall₂_map_left_iff, List.forall₂_same]
    intro j hj
    exact h j hj depth (by omega)
  have hnode : (array items).node = .array (items.map node) true := by rw [node, itemNodes_eq]
  rw [hnode, Shape.read, enter_succ, ok_bind, hitems]
  rfl

theorem accepts_pair {first second : Shape} {levels : Nat} {a b : Json}
    (ha : first.Accepts levels a) (hb : second.Accepts levels b) :
    (Shape.pair first second).Accepts (levels + 1) (.array [a, b]) := by
  intro depth hdepth
  obtain ⟨depth, rfl⟩ : ∃ d, depth = d + 1 := ⟨depth - 1, by omega⟩
  have hread : (Shape.pair first second).read (depth + 1) (array [a, b]).node =
      first.read depth a.node >>= fun a => second.read depth b.node >>= fun b =>
        .ok (.array [a, b]) := rfl
  rw [hread, ha depth (by omega), ok_bind, hb depth (by omega), ok_bind]

section Record
variable {depth : Nat} {fields : List (String × Shape × Option Json)}
  {members given : List (String × Json)}

theorem readField_of_mem {name : String} {shape : Shape} {default : Option Json} (value : Node)
    (hnodup : (fields.map (·.1)).Nodup) (h : (name, shape, default) ∈ fields) :
    readField depth name value fields = some (shape.read depth value) := by
  induction fields with
  | nil => cases h
  | cons f fields ih =>
    obtain ⟨name', shape', default'⟩ := f
    obtain ⟨hnot, hnodup⟩ := List.nodup_cons.1 hnodup
    rw [readField]
    rcases List.mem_cons.1 h with heq | h
    · cases heq
      rw [if_pos rfl]
    · have hne : name' ≠ name := fun heq => hnot (List.mem_map.2 ⟨_, h, heq.symm⟩)
      rw [if_neg hne]
      exact ih hnodup h

/-- Members under different keys are collected one after the other. -/
theorem foldlM_collect
    {f : List (String × Json) → Option String × Node → Except Fault (List (String × Json))}
    (hnodup : (members.map (·.1)).Nodup) (hnew : ∀ m ∈ members, m.1 ∉ given.map (·.1))
    (hstep : ∀ m ∈ members, ∀ given : List (String × Json), given.lookup m.1 = none →
      f given (some m.1, m.2.node) = .ok (m :: given)) :
    (memberNodes members).foldlM f given = .ok (members.reverse ++ given) := by
  induction members generalizing given with
  | nil => rfl
  | cons m members ih =>
    obtain ⟨hnot, hnodup⟩ := List.nodup_cons.1 hnodup
    have hfirst : f given (some m.1, m.2.node) = .ok (m :: given) :=
      hstep m List.mem_cons_self given (lookup_eq_none (hnew m List.mem_cons_self))
    have hrest : ∀ m' ∈ members, m'.1 ∉ (m :: given).map (·.1) := by
      intro m' hm'
      rw [List.map_cons, List.mem_cons, not_or]
      constructor
      · intro heq
        exact hnot (List.mem_map.2 ⟨m', hm', heq⟩)
      · exact hnew m' (List.mem_cons_of_mem _ hm')
    rw [memberNodes, List.foldlM_cons, hfirst, ok_bind,
      ih hnodup hrest fun m' hm' => hstep m' (List.mem_cons_of_mem _ hm')]
    simp

theorem fillIn_eq (h : List.Forall₂ (fun f m => f.1 = m.1 ∧ given.lookup m.1 = some m.2)
    fields members) : fillIn given fields = .ok members := by
  induction h with
  | nil => rfl
  | @cons f m fields members hfm _ ih =>
    obtain ⟨name, shape, default⟩ := f
    obtain ⟨rfl, hlookup⟩ := hfm
    rw [fillIn, hlookup, ih]
    rfl

/-- An object of the fields of a record, in their order. -/
theorem accepts_record {levels : Nat} (hnodup : (fields.map (·.1)).Nodup)
    (h : List.Forall₂ (fun f m => f.1 = m.1 ∧ f.2.1.Accepts levels m.2) fields members) :
    (Shape.record fields).Accepts (levels + 1) (.object members) := by
  intro depth hdepth
  obtain ⟨depth, rfl⟩ : ∃ d, depth = d + 1 := ⟨depth - 1, by omega⟩
  have hkeys : fields.map (·.1) = members.map (·.1) := map_eq_of_forall₂ h fun _ _ hfm => hfm.1
  have hread : ∀ m ∈ members, readField depth m.1 m.2.node fields = some (.ok m.2) := by
    intro m hm
    obtain ⟨⟨name, shape, default⟩, hf, rfl, haccepts⟩ := exists_of_forall₂_right h hm
    rw [readField_of_mem _ hnodup hf, haccepts depth (by omega)]
  have hnode : (object members).node = .object (memberNodes members) true := by rw [node]
  have hfill : fillIn members.reverse fields = .ok members := by
    apply fillIn_eq
    refine forall₂_imp_of_mem h fun f hf m hm hfm => ⟨hfm.1, ?_⟩
    apply lookup_of_mem
    · rw [List.map_reverse, ← hkeys]
      exact List.pairwise_reverse.2 (hnodup.imp Ne.symm)
    · exact List.mem_reverse.2 hm
  rw [hnode, Shape.read, enter_succ, ok_bind, foldlM_collect (hkeys ▸ hnodup) (by simp)]
  · rw [ok_bind, List.append_nil, hfill]
    rfl
  · intro m hm given hnew
    simp only [key, ok_bind, hnew, hread m hm]
    rfl

end Record

section Tagged
variable {depth : Nat} {variants : List (String × Shape)}

theorem readVariant_of_mem {name : String} {shape : Shape} (value : Node)
    (hnodup : (variants.map (·.1)).Nodup) (h : (name, shape) ∈ variants) :
    readVariant depth name value variants = some (shape.read depth value) := by
  induction variants with
  | nil => cases h
  | cons v variants ih =>
    obtain ⟨name', shape'⟩ := v
    obtain ⟨hnot, hnodup⟩ := List.nodup_cons.1 hnodup
    rw [readVariant]
    rcases List.mem_cons.1 h with heq | h
    · cases heq
      rw [if_pos rfl]
    · have hne : name' ≠ name := fun heq => hnot (List.mem_map.2 ⟨_, h, heq.symm⟩)
      rw [if_neg hne]
      exact ih hnodup h

/-- The name of a variant under the tag, and a value of its shape under the other key. -/
theorem accepts_tagged {tag content name : String} {shape : Shape} {value : Json} {levels : Nat}
    (hkeys : tag ≠ content) (hnodup : (variants.map (·.1)).Nodup)
    (hvariant : (name, shape) ∈ variants) (h : shape.Accepts levels value) :
    (Shape.tagged tag content variants).Accepts (levels + 1)
      (.object [(tag, .string name), (content, value)]) := by
  intro depth hdepth
  obtain ⟨depth, rfl⟩ : ∃ d, depth = d + 1 := ⟨depth - 1, by omega⟩
  have hnode : (object [(tag, .string name), (content, value)]).node =
      .object [(some tag, .string name), (some content, value.node)] true := by
    simp only [node, memberNodes]
  have hname : readChoice (variants.map (·.1)) depth (.string name) = .ok name := by
    rw [readChoice, readName, if_pos (List.mem_map.2 ⟨_, hvariant, rfl⟩)]
  rw [hnode, Shape.read, enter_succ, ok_bind]
  simp [key, hkeys, hname, readVariant_of_mem _ hnodup hvariant, h depth (by omega)]

end Tagged

end TimeSeries.Json
