import TimeSeries.Codec
import TimeSeries.Proofs.Shapes

/-!
Definitions are read back as they were written, and so are observations and results as long as
their dates have four digits for the year. Every form has the shape that is demanded of it, so the
shape takes it as it stands, and none is nested too deep to be read.
-/
namespace TimeSeries.Codec

open Json (Shape)

variable {α : Type}

/-- What is written of the value has the shape, nested no deeper than some levels, and comes apart
into the value again. -/
structure RoundTrips (c : Codec α) (levels : Nat) (a : α) : Prop where
  plain : (c.encode a).IsPlain
  accepts : c.shape.Accepts levels (c.encode a)
  decode : c.decode? (c.encode a) = some a

theorem RoundTrips.mono {c : Codec α} {levels levels' : Nat} {a : α} (h : c.RoundTrips levels a)
    (hle : levels ≤ levels') : c.RoundTrips levels' a :=
  ⟨h.plain, fun depth hdepth => h.accepts depth (Nat.le_trans hle hdepth), h.decode⟩

theorem ofText_compact {shape : Shape} {levels : Nat} {j : Json} (hplain : j.IsPlain)
    (haccepts : shape.Accepts levels j) (hlevels : levels ≤ Json.Node.maxDepth) :
    shape.ofText j.compact = .ok j := by
  rw [Shape.ofText, Json.compact, String.toList_ofList, Json.ofChars_chars hplain]
  dsimp only
  rw [haccepts _ hlevels]
  rfl

/-- Reading gives back what was written, up to the depth that reading allows. -/
theorem RoundTrips.read_write {c : Codec α} {levels : Nat} {a : α} (h : c.RoundTrips levels a)
    (hlevels : levels ≤ Json.Node.maxDepth) : c.read (c.write a) = .ok a := by
  rw [read, write, ofText_compact h.plain h.accepts hlevels, ok_bind, h.decode]
  rfl

theorem value_roundTrips (v : Value) : value.RoundTrips 0 v where
  plain := by
    have hlow := Int64.le_toInt v
    have hhigh := Int64.toInt_lt v
    show v.toInt.natAbs < 0x10000000000000000
    omega
  accepts := Json.accepts_int64 v
  decode := Value.ofInt?_toInt v

theorem text_roundTrips (s : String) : text.RoundTrips 0 s where
  plain := trivial
  accepts := Json.accepts_string s
  decode := rfl

theorem date_roundTrips {d : Date} (h : d.IsFourDigit) : date.RoundTrips 0 d where
  plain := trivial
  accepts := Json.accepts_date h
  decode := Date.ofLoose?_text h .wide

theorem method_roundTrips (m : Method) : method.RoundTrips 0 m := by
  cases m with
  | value => exact ⟨trivial, Json.accepts_choice (by decide), rfl⟩
  | index => exact ⟨trivial, Json.accepts_choice (by decide), rfl⟩

theorem kind_roundTrips (k : SeriesKind) : kind.RoundTrips 0 k := by
  cases k with
  | primitive => exact ⟨trivial, Json.accepts_choice (by decide), rfl⟩
  | composed => exact ⟨trivial, Json.accepts_choice (by decide), rfl⟩

theorem list_roundTrips {item : Codec α} {levels : Nat} {as : List α}
    (h : ∀ a ∈ as, item.RoundTrips levels a) : (list item).RoundTrips (levels + 1) as where
  plain := by
    show Json.ItemsPlain (as.map item.encode)
    rw [Json.itemsPlain_iff]
    intro j hj
    obtain ⟨a, ha, rfl⟩ := List.mem_map.1 hj
    exact (h a ha).plain
  accepts := by
    apply Json.accepts_list
    intro j hj
    obtain ⟨a, ha, rfl⟩ := List.mem_map.1 hj
    exact (h a ha).accepts
  decode := by
    show (as.map item.encode).mapM item.decode? = some as
    have hitems : as.mapM (item.decode? ∘ item.encode) = some (as.map id) :=
      mapM_eq_some_map fun a ha => (h a ha).decode
    rw [List.mapM_map, hitems, List.map_id]

theorem constituent_roundTrips (c : Constituent) : constituent.RoundTrips 1 c where
  plain := ⟨trivial, (value_roundTrips c.weight).plain, trivial⟩
  accepts := Json.accepts_record (by decide)
    (.cons ⟨rfl, Json.accepts_string c.id⟩ (.cons ⟨rfl, Json.accepts_int64 c.weight⟩ .nil))
  decode := by
    show (value.decode? (value.encode c.weight)).map (fun w => (⟨c.id, w⟩ : Constituent)) = some c
    rw [(value_roundTrips c.weight).decode]
    rfl

theorem composition_roundTrips (c : Composition) : composition.RoundTrips 3 c := by
  have hlist : (list constituent).RoundTrips 2 c.constituents :=
    list_roundTrips fun k _ => constituent_roundTrips k
  have hweight : value.RoundTrips 2 c.totalWeight := (value_roundTrips c.totalWeight).mono (by omega)
  constructor
  · exact ⟨hlist.plain, hweight.plain, trivial⟩
  · exact Json.accepts_record (by decide)
      (.cons ⟨rfl, hlist.accepts⟩ (.cons ⟨rfl, hweight.accepts⟩ .nil))
  · show (do
      let cs ← (list constituent).decode? ((list constituent).encode c.constituents)
      let w ← value.decode? (value.encode c.totalWeight)
      return (⟨cs, w⟩ : Composition)) = some c
    rw [hlist.decode, hweight.decode]
    rfl

theorem binding_roundTrips (b : Binding) : binding.RoundTrips 1 b where
  plain := ⟨trivial, trivial, trivial, trivial, trivial⟩
  accepts := Json.accepts_record (by decide)
    (.cons ⟨rfl, Json.accepts_string b.table⟩ (.cons ⟨rfl, Json.accepts_string b.dateColumn⟩
      (.cons ⟨rfl, Json.accepts_string b.valueColumn⟩
        (.cons ⟨rfl, Json.accepts_string b.createdAtColumn⟩ .nil))))
  decode := rfl

/-- A definition of any kind, whatever its texts and numbers. -/
theorem series_roundTrips (s : Series) : series.RoundTrips 4 s := by
  cases s with
  | primitive b =>
    have hbinding := (binding_roundTrips b).mono (show 1 ≤ 3 by omega)
    constructor
    · exact ⟨trivial, hbinding.plain, trivial⟩
    · exact Json.accepts_tagged (by decide) (by decide) List.mem_cons_self hbinding.accepts
    · show (binding.decode? (binding.encode b)).map Series.primitive = some (.primitive b)
      rw [hbinding.decode]
      rfl
  | composed c =>
    have hcomposition := composition_roundTrips c
    constructor
    · exact ⟨trivial, hcomposition.plain, trivial⟩
    · exact Json.accepts_tagged (by decide) (by decide)
        (List.mem_cons_of_mem _ List.mem_cons_self) hcomposition.accepts
    · show (composition.decode? (composition.encode c) >>= fun c => some (Series.composed c)) =
        some (.composed c)
      rw [hcomposition.decode]
      rfl

/-! ## Observations and results -/

theorem seriesInfo_roundTrips (info : SeriesInfo) : seriesInfo.RoundTrips 1 info where
  plain := ⟨trivial, (kind_roundTrips info.kind).plain, trivial⟩
  accepts := Json.accepts_record (by decide)
    (.cons ⟨rfl, Json.accepts_string info.id⟩
      (.cons ⟨rfl, (kind_roundTrips info.kind).accepts⟩ .nil))
  decode := by
    show (kind.decode? (kind.encode info.kind)).map (fun k => (⟨info.id, k⟩ : SeriesInfo)) =
      some info
    rw [(kind_roundTrips info.kind).decode]
    rfl

section Observation
variable {o : Observation} (h : o.date.IsFourDigit)
include h

/-- The two parts of an observation come apart again, whatever they stand in. -/
theorem decode_parts : (do
    let d ← date.decode? (date.encode o.date)
    let v ← value.decode? (value.encode o.value)
    return (⟨d, v⟩ : Observation)) = some o := by
  rw [(date_roundTrips h).decode, (value_roundTrips o.value).decode]
  rfl

theorem observation_roundTrips : observation.RoundTrips 1 o where
  plain := ⟨trivial, (value_roundTrips o.value).plain, trivial⟩
  accepts := Json.accepts_record (by decide)
    (.cons ⟨rfl, Json.accepts_date h⟩ (.cons ⟨rfl, Json.accepts_int64 o.value⟩ .nil))
  decode := decode_parts h

theorem row_roundTrips : row.RoundTrips 1 o where
  plain := ⟨trivial, (value_roundTrips o.value).plain, trivial⟩
  accepts := Json.accepts_pair (Json.accepts_date h) (Json.accepts_int64 o.value)
  decode := decode_parts h

end Observation

theorem resultSet_roundTrips {r : ResultSet} (h : ∀ o ∈ r.rows, o.date.IsFourDigit) :
    resultSet.RoundTrips 3 r := by
  have hcolumns : (list text).RoundTrips 2 r.columns :=
    (list_roundTrips fun s _ => text_roundTrips s).mono (by omega)
  have hrows : (list row).RoundTrips 2 r.rows := list_roundTrips fun o ho => row_roundTrips (h o ho)
  constructor
  · exact ⟨hcolumns.plain, hrows.plain, trivial⟩
  · exact Json.accepts_record (by decide)
      (.cons ⟨rfl, hcolumns.accepts⟩ (.cons ⟨rfl, hrows.accepts⟩ .nil))
  · show (do
      let cs ← (list text).decode? ((list text).encode r.columns)
      let rs ← (list row).decode? ((list row).encode r.rows)
      return (⟨cs, rs⟩ : ResultSet)) = some r
    rw [hcolumns.decode, hrows.decode]
    rfl

/-! ## Texts -/

theorem read_write_series (s : Series) : series.read (series.write s) = .ok s :=
  (series_roundTrips s).read_write (by decide)

end TimeSeries.Codec
