import TimeSeries.Proofs.LaterRows
import TimeSeries.Proofs.Refinement

/-!
What an evaluation is open to. It reads the definitions that it reaches and the tables that they
draw on, and nothing else: two catalogues that agree on the former and two sources that agree on the
latter are told apart neither by the answer nor by the reads. In a store, whatever is done to
a series out of reach goes unnoticed, unless a row is recorded into a table that is drawn on too.
-/
namespace TimeSeries

open Text (sameName)

/-! ## Reads -/

namespace Traced

variable {ρ α β : Type} {p : ρ → Prop}

/-- Everything that is read has the property. -/
def ReadsOnly (p : ρ → Prop) (x : Traced ρ α) : Prop := ∀ r ∈ x.reads, p r

theorem readsOnly_done (outcome : Except Error α) : (done outcome : Traced ρ α).ReadsOnly p := nofun

theorem ReadsOnly.bind {x : Traced ρ α} {f : α → Traced ρ β} (hx : x.ReadsOnly p)
    (hf : ∀ a, (f a).ReadsOnly p) : (x >>= f).ReadsOnly p := by
  cases h : x.outcome with
  | error e =>
    rw [ReadsOnly, reads_bind_of_error h]
    exact hx
  | ok a =>
    rw [ReadsOnly, reads_bind_of_ok h, List.forall_mem_append]
    exact ⟨hx, hf a⟩

end Traced

namespace Primitive

variable (source : Source) (binding : Binding)

/-- The read is a lookup of the binding. -/
def IsLookup (r : Read) : Prop := ∃ lookup, r = .rows binding lookup

theorem readsOnly_fetch (lookup : Lookup) :
    (fetch source binding lookup).ReadsOnly (IsLookup binding) := by
  intro r hr
  exact ⟨lookup, List.mem_singleton.1 hr⟩

theorem readsOnly_single (lookup : Lookup) (what : String) :
    (single source binding lookup what).ReadsOnly (IsLookup binding) := by
  apply (readsOnly_fetch source binding lookup).bind
  intro rows
  split <;> exact Traced.readsOnly_done _

theorem readsOnly_backfill (day : Date) (found : List Observation) :
    (backfill source binding day found).ReadsOnly (IsLookup binding) := by
  rw [backfill]
  split
  · exact Traced.readsOnly_done _
  · apply (readsOnly_single source binding _ _).bind
    intro before
    cases before <;> exact Traced.readsOnly_done _

theorem readsOnly_value (query : Query) :
    (value source binding query).ReadsOnly (IsLookup binding) := by
  rw [value]
  cases query.resolution with
  | base => exact (readsOnly_single source binding _ _).bind fun _ => Traced.readsOnly_done _
  | latest => exact (readsOnly_single source binding _ _).bind fun _ => Traced.readsOnly_done _
  | exact day =>
    apply (readsOnly_fetch source binding _).bind
    intro rows
    exact (readsOnly_backfill source binding _ _).bind fun _ => Traced.readsOnly_done _
  | range first last =>
    apply (readsOnly_fetch source binding _).bind
    intro rows
    exact (readsOnly_backfill source binding _ _).bind fun _ => Traced.readsOnly_done _

/-- A call reads its own table only. -/
theorem readsOnly_call (method : Method) (query : Query) :
    (call source binding method query).ReadsOnly (IsLookup binding) := by
  cases method with
  | value => exact readsOnly_value source binding query
  | index =>
    apply (readsOnly_value source binding .earliest).bind
    intro bases
    split
    · apply (readsOnly_value source binding query).bind
      intro current
      split <;> exact Traced.readsOnly_done _
    · exact Traced.readsOnly_done _

end Primitive

namespace Catalogue

section Frame
variable {c c' : Catalogue} {source source' : Source} {method : Method} {query : Query}

/-- The read is of a definition that is reached, or a lookup in a table that is drawn on. -/
def InReach (c : Catalogue) (id : SeriesId) : Read → Prop
  | .definition x => c.Reaches id x
  | .rows binding _ => c.Draws id binding

theorem InReach.of_hasConstituent {id k : SeriesId} (hedge : c.HasConstituent id k) {r : Read}
    (h : c.InReach k r) : c.InReach id r := by
  cases r with
  | definition x => exact .head hedge h
  | rows binding lookup => exact Draws.of_hasConstituent hedge h

theorem readsOnly_evaluateBelow (path : List SeriesId) (id : SeriesId) :
    (c.evaluateBelow source method query path id).ReadsOnly (c.InReach id) := by
  induction path, id using below_induction c with
  | step path id ih =>
  by_cases hid : id ∈ path
  · rw [evaluateBelow_of_mem hid]
    exact Traced.readsOnly_done _
  · have hself : c.InReach id (.definition id) := Relation.ReflTransGen.refl
    cases hd : (c.readDefinition id).outcome with
    | error e =>
      rw [evaluateBelow_of_not_mem hid, Traced.bind_of_error hd]
      exact List.forall_mem_singleton.2 hself
    | ok series =>
      have hd := definition_of_readDefinition hd
      cases series with
      | primitive binding =>
        rw [evaluateBelow_of_primitive hid hd]
        refine List.forall_mem_cons.2 ⟨hself, fun r hr => ?_⟩
        obtain ⟨lookup, rfl⟩ := Primitive.readsOnly_call source binding method query r hr
        exact (draws_of_primitive hd).2 rfl
      | composed comp =>
        rw [evaluateBelow_of_composed hid hd]
        refine List.forall_mem_cons.2 ⟨hself, fun r hr => ?_⟩
        rw [Composition.reads_combineWith, List.mem_flatMap] at hr
        obtain ⟨k, hasked, hr⟩ := hr
        obtain ⟨m, hm, rfl⟩ := List.mem_map.1 ((comp.asked_prefix _).subset hasked)
        have hedge : c.HasConstituent id m.id := ⟨comp, hd, m, hm, rfl⟩
        exact (ih hid m.id hedge r hr).of_hasConstituent hedge

/-- Reads and answer are the same if what is reached and what is drawn on is. -/
theorem evaluateBelow_eq_of_reaches {id : SeriesId}
    (hdefinition : ∀ x, c.Reaches id x → c'.definition x = c.definition x)
    (hsource : ∀ binding, c.Draws id binding → source' binding = source binding)
    (path : List SeriesId) : c'.evaluateBelow source' method query path id =
      c.evaluateBelow source method query path id := by
  induction path, id using below_induction c with
  | step path id ih =>
  by_cases hid : id ∈ path
  · rw [evaluateBelow_of_mem hid, evaluateBelow_of_mem hid]
  · have hself := hdefinition id .refl
    have hread : c'.readDefinition id = c.readDefinition id := by
      rw [readDefinition, readDefinition, hself]
    cases hd : (c.readDefinition id).outcome with
    | error e =>
      rw [evaluateBelow_of_not_mem hid, evaluateBelow_of_not_mem hid, hread,
        Traced.bind_of_error hd, Traced.bind_of_error hd]
    | ok series =>
      have hd := definition_of_readDefinition hd
      have hd' := hself.trans hd
      cases series with
      | primitive binding =>
        have hcall : Primitive.call source' binding method query =
            Primitive.call source binding method query := by
          apply Primitive.call_congr
          intro lookup _
          rw [hsource binding ((draws_of_primitive hd).2 rfl)]
        rw [evaluateBelow_of_primitive hid hd, evaluateBelow_of_primitive hid hd', hcall]
      | composed comp =>
        have hcombine : comp.combineWith (c'.resolveBelow source' method query (id :: path)) =
            comp.combineWith (c.resolveBelow source method query (id :: path)) := by
          apply Composition.combineWith_congr
          intro k hk
          have hedge : c.HasConstituent id k.id := ⟨comp, hd, k, hk, rfl⟩
          rw [resolveBelow, resolveBelow, ih hid k.id hedge
            (fun x hx => hdefinition x (.head hedge hx))
            fun binding hb => hsource binding (hb.of_hasConstituent hedge)]
        rw [evaluateBelow_of_composed hid hd, evaluateBelow_of_composed hid hd', hcombine]

end Frame

end Catalogue

/-! ## Tables that a statement leaves alone -/

namespace Table

variable {t t' : Table} {row : Row}

theorem name_add? (h : t.add? row = some t') : t'.name = t.name := by
  rw [add?] at h
  obtain ⟨row', -, h⟩ := Option.bind_eq_some_iff.1 h
  split at h
  · cases h
    rfl
  · cases h

end Table

namespace Database

variable {db db' : Database} {name : String} {given : List (String × Cell)}

theorem name_of_table? {t : Table} (h : db.table? name = some t) : sameName t.name name = true :=
  List.find?_some (p := fun t : Table => sameName t.name name) h

/-- The database with another table in place of the one of a name. -/
def HasNewTable (db : Database) (name : String) (db' : Database) : Prop :=
  ∃ t, sameName t.name name = true ∧ db' = db.setTable t

theorem hasNewTable_of_insert? (h : db.insert? name given = some db') :
    db.HasNewTable name db' := by
  obtain ⟨t, ht, h⟩ := Option.bind_eq_some_iff.1 h
  obtain ⟨row, -, h⟩ := Option.bind_eq_some_iff.1 h
  obtain ⟨t', ht', h⟩ := Option.bind_eq_some_iff.1 h
  exact ⟨t', Table.name_add? ht' ▸ name_of_table? ht, (Option.some.inj h).symm⟩

/-- Tables of other names are found as before. -/
theorem table?_setTable {t : Table} (h : sameName t.name name = false) :
    (db.setTable t).table? name = db.table? name := by
  have hname (u : Table) : (if u.name = t.name then t else u).name = u.name := by
    by_cases hu : u.name = t.name <;> simp [hu]
  have hfind : db.tables.find? ((fun u : Table => sameName u.name name) ∘
      fun u => if u.name = t.name then t else u) = db.table? name := by
    rw [table?]
    congr 1
    funext u
    rw [Function.comp, hname]
  rw [table?, setTable, List.find?_map, hfind]
  cases hu : db.table? name with
  | none => rfl
  | some u =>
    have hne : u.name ≠ t.name := by
      intro heq
      rw [← heq, name_of_table? hu] at h
      cases h
    simp [hne]

section Others
variable (h : db.HasNewTable name db')
include h

theorem HasNewTable.table? {other : String} (hother : sameName name other = false) :
    db'.table? other = db.table? other := by
  obtain ⟨t, ht, rfl⟩ := h
  exact table?_setTable ((Text.sameName_congr ht other).symm.trans hother)

theorem HasNewTable.source [Scan] {b : Binding} (hother : sameName name b.table = false) :
    db'.source b = db.source b := by
  have htable := h.table? hother
  obtain ⟨t, -, rfl⟩ := h
  funext lookup
  rw [Database.source, Database.source, lookup?, lookup?, view?, view?, htable]
  rfl

theorem HasNewTable.definition (hother : sameName name Store.catalogueName = false) :
    Store.definition db' = Store.definition db := by
  have htable := h.table? hother
  funext id
  simp only [Store.definition, Store.entryUnder?, Store.entries?, Store.identifierColumn?, htable]

end Others
end Database

/-! ## Series out of reach -/

namespace Store

open StoreAction Database.Layout

variable {db db' : Database}

/-- No evaluation of a series can tell the databases apart. -/
def Unnoticed [Scan] (db db' : Database) (id : SeriesId) : Prop :=
  ∀ method query, (catalogue db').evaluate db'.source id method query =
    (catalogue db).evaluate db.source id method query

theorem unnoticed_of_frame [Scan] {id : SeriesId}
    (hdefinition : ∀ x, (catalogue db).Reaches id x → definition db' x = definition db x)
    (hsource : ∀ b, (catalogue db).Draws id b → db'.source b = db.source b) :
    Unnoticed db db' id := by
  intro method query
  rw [Catalogue.evaluate, Catalogue.evaluate]
  exact Catalogue.evaluateBelow_eq_of_reaches hdefinition hsource []

/-! ### Catalogue rows -/

/-- The cells of a catalogue row as they are written. -/
def catalogueRow (id kind definition stamp : String) : Row :=
  [.text id, .text kind, .text definition, .text stamp]

/-- A catalogue row as it is read. -/
def entryOf (row : Row) : Store.Entry := ⟨Table.cell row 0, Table.cell row 1, Table.cell row 2⟩

/-- A catalogue with the rows is searched for the first one under an identifier. -/
theorem entryUnder?_eq {rows : List Row}
    (h : db.table? catalogueName = some ⟨catalogueName, catalogueColumns, rows⟩) (id : SeriesId) :
    entryUnder? db id = some ((rows.map entryOf).find? fun e => idColumn.holds e.id id) := by
  simp only [entryUnder?, entries?, identifierColumn?, h]
  rfl

theorem clash_catalogueRow (rows : List Row) (id kind definition stamp : String)
    (r : Registration) :
    Table.clash ⟨catalogueName, catalogueColumns, rows⟩ (catalogueRow id kind definition stamp)
      (Registration.row r) = (id == r.id) := by
  have hsame : Cell.same (.text id) (.text r.id) = (id == r.id) := holds_idColumn id r.id
  simp [Table.clash, catalogueColumns, Registration.row, catalogueRow, Column.same, Column.key,
    Collation.key, hsame]

/-- The catalogue with a row for an identifier in place of all the others that it has. -/
def replacedTable (registrations : List Registration) (id : SeriesId) (row : Row) : Table :=
  ⟨catalogueName, catalogueColumns,
    (registrations.filter fun r => r.id != id).map Registration.row ++ [row]⟩

theorem replace?_catalogueRow (registrations : List Registration)
    (id kind definition stamp : String) :
    (catalogueTable registrations).replace? (catalogueRow id kind definition stamp) =
      some (replacedTable registrations id (catalogueRow id kind definition stamp)) := by
  let row := catalogueRow id kind definition stamp
  let kept : Table := ⟨catalogueName, catalogueColumns,
    (registrations.filter fun r => r.id != id).map Registration.row⟩
  have hkept : { catalogueTable registrations with
      rows := (catalogueTable registrations).rows.filter fun other =>
        !(catalogueTable registrations).clash row other } = kept := by
    show (⟨_, _, _⟩ : Table) = ⟨_, _, _⟩
    congr 1
    show (registrations.map Registration.row).filter _ = _
    rw [List.filter_map]
    congr 2
    funext r
    rw [Function.comp, catalogueTable, clash_catalogueRow, bne, Bool.beq_comm]
  have hclash : kept.rows.all (fun other => !kept.clash row other) = true := by
    rw [List.all_eq_true]
    intro other hother
    obtain ⟨r, hr, rfl⟩ := List.mem_map.1 hother
    rw [clash_catalogueRow, Bool.beq_comm]
    exact (List.mem_filter.1 hr).2
  have hadmits : kept.admits row = true := by
    rw [Table.admits, hclash, Bool.and_true]
    rfl
  have hnumbering : (catalogueTable registrations).numbering? = none := rfl
  have hnumbering' : kept.numbering? = none := rfl
  rw [Table.replace?, Table.numbered?, hnumbering]
  show ({ catalogueTable registrations with rows := _ } : Table).add? row = _
  rw [hkept, Table.add?, Table.numbered?, hnumbering']
  show (if kept.admits row then _ else none) = _
  rw [if_pos hadmits, Table.place, hnumbering']
  rfl

section Replaced
variable {registrations : List Registration} {names : List String} {rows : String → List Row}
  (h : db.Layout registrations names rows)
include h

/-- A row that is written unchecked comes last, and those under its identifier go. -/
theorem run_replaceDefinition (now : Instant) (id : SeriesId) (kind definition : String) :
    (replaceDefinition now id kind definition).run db = (.ok (), db.setTable
      (replacedTable registrations id (catalogueRow id kind definition now.stamp))) := by
  have hreplace : db.replace? catalogueName
      [("series_id", .text id), ("kind", .text kind), ("definition_json", .text definition),
        ("registered_at", .text now.stamp)] = some (db.setTable
          (replacedTable registrations id (catalogueRow id kind definition now.stamp))) := by
    rw [Database.replace?, h.table?_catalogue]
    show ((catalogueTable registrations).replace?
      (catalogueRow id kind definition now.stamp)).bind (fun t => some (db.setTable t)) = _
    rw [replace?_catalogueRow]
    rfl
  rw [replaceDefinition, run_execute, hreplace]

/-- Other definitions are found as before. -/
theorem definition_replaced {id x : SeriesId} (hne : x ≠ id) (kind stamp : String) (json : String) :
    definition (db.setTable (replacedTable registrations id (catalogueRow id kind json stamp))) x =
      definition db x := by
  let row := catalogueRow id kind json stamp
  have htable : (db.setTable (replacedTable registrations id row)).table? catalogueName =
      some (replacedTable registrations id row) := by
    rw [Database.setTable, h.tables, List.map_cons]
    exact List.find?_cons_of_pos (Text.sameName_self catalogueName)
  have hself : idColumn.holds (entryOf row).id x = false := by
    rw [show (entryOf row).id = .text id from rfl, holds_idColumn, beq_eq_false_iff_ne]
    exact hne.symm
  have hother (r : Registration) :
      (r.id != id && idColumn.holds (entryOf (Registration.row r)).id x) =
        idColumn.holds (entryOf (Registration.row r)).id x := by
    rw [show (entryOf (Registration.row r)).id = .text r.id from rfl, holds_idColumn]
    by_cases hx : r.id = x <;> simp [hx, hne]
  have hentry : entryUnder? (db.setTable (replacedTable registrations id row)) x =
      entryUnder? db x := by
    rw [entryUnder?_eq htable, entryUnder?_eq h.table?_catalogue, List.map_append,
      List.find?_append, List.map_singleton, List.find?_singleton, hself,
      if_neg Bool.false_ne_true, Option.or_none, List.map_map, List.map_map, List.find?_map,
      List.find?_map, List.find?_filter]
    congr 3
    funext r
    simpa using hother r
  rw [definition, definition, hentry]

end Replaced
end Store

/-! ### After a run -/

namespace Session

open Store StoreAction

variable {s : Session} {registrations : List Registration} {names : List String}
  (h : s.Holds registrations names) {id other : SeriesId}
include h

theorem Holds.not_catalogue_of_draws {b : Binding} (hb : (catalogue s.database).Draws id b) :
    sameName catalogueName b.table = false := by
  obtain ⟨x, -, hd⟩ := hb
  have hx : definition s.database x = .ok (some (.primitive b)) := hd
  rw [h.definition_eq] at hx
  exact h.not_sameName_catalogue (Except.ok.inj hx)

/-- A changed catalogue goes unnoticed if the definitions that are reached are in it as before. -/
theorem Holds.unnoticed_catalogue [Scan] {db' : Database}
    (hcatalogue : s.database.HasNewTable catalogueName db')
    (hdefinition : ∀ x, (catalogue s.database).Reaches id x →
      definition db' x = definition s.database x) : Unnoticed s.database db' id := by
  apply unnoticed_of_frame hdefinition
  intro b hb
  exact hcatalogue.source (h.not_catalogue_of_draws hb)

section Other
variable [Scan] (hother : ¬ (catalogue s.database).Reaches id other)
include hother

theorem Holds.unnoticed_replaceDefinition (now : Instant) (kind json : String) :
    Unnoticed s.database ((replaceDefinition now other kind json).run s.database).2 id := by
  rw [run_replaceDefinition h.layout]
  have hname : sameName (replacedTable registrations other
      (catalogueRow other kind json now.stamp)).name catalogueName = true :=
    Text.sameName_self catalogueName
  apply h.unnoticed_catalogue
  · exact ⟨_, hname, rfl⟩
  · intro x hx
    apply definition_replaced h.layout
    rintro rfl
    exact hother hx

theorem Holds.unnoticed_insertDefinition (now : Instant) (series : Series) :
    Unnoticed s.database ((insertDefinition now other series).run s.database).2 id := by
  by_cases hnew : registered? registrations other = none
  · obtain ⟨db', hinsert, hlayout⟩ := h.layout.exists_insert_registration
      (r := ⟨other, series, now.stamp⟩) (registered?_eq_none_iff.1 hnew)
    rw [run_insertDefinition, h.layout.isTaken?_eq, hnew, hinsert]
    apply h.unnoticed_catalogue (Database.hasNewTable_of_insert? hinsert)
    intro x hx
    have hne : other ≠ x := by
      rintro rfl
      exact hother hx
    rw [hlayout.definition_eq, h.layout.definition_eq, registered?_append, if_neg hne,
      Option.or_none]
  · rw [run_insertDefinition_of_taken h.layout now series hnew]
    exact fun _ _ => rfl

theorem Holds.unnoticed_registerPrimitive (now : Instant) (metadata : Metadata) :
    Unnoticed s.database ((Store.registerPrimitive now other metadata).run s.database).2 id := by
  rw [run_registerPrimitive]
  cases Binding.ofMetadata metadata s.database.schemas with
  | error e => exact fun _ _ => rfl
  | ok b => exact h.unnoticed_insertDefinition hother now (.primitive b)

theorem Holds.unnoticed_registerComposed (now : Instant) (metadata : Metadata) :
    Unnoticed s.database ((Store.registerComposed now other metadata).run s.database).2 id := by
  rw [run_registerComposed]
  cases Composition.ofMetadata metadata with
  | error e => exact fun _ _ => rfl
  | ok c => exact h.unnoticed_insertDefinition hother now (.composed c)

end Other

theorem Holds.unnoticed_record [Scan]
    (htables : ∀ b b', definition s.database other = .ok (some (.primitive b)) →
      (catalogue s.database).Draws id b' → sameName b.table b'.table = false)
    (observation : Observation) (moment : Instant) :
    Unnoticed s.database ((Store.record other observation moment).run s.database).2 id := by
  rw [run_record h.layout, ← h.registry]
  cases hx : s.registry.find? other with
  | none => exact fun _ _ => rfl
  | some series =>
    cases series with
    | composed c => exact fun _ _ => rfl
    | primitive b =>
      dsimp only
      cases hinsert : s.database.insert? b.table (Posting.given ⟨b, observation, moment⟩) with
      | none => exact fun _ _ => rfl
      | some db' =>
        have hnew := Database.hasNewTable_of_insert? hinsert
        have hcatalogue : sameName b.table catalogueName = false :=
          (Text.sameName_comm _ _).trans (h.not_sameName_catalogue hx)
        have hd : definition s.database other = .ok (some (.primitive b)) := by
          rw [h.definition_eq, hx]
        apply unnoticed_of_frame
        · intro x _
          rw [hnew.definition hcatalogue]
        · intro b' hb'
          exact hnew.source (htables b b' hd hb')

end Session

/-! ## Frames -/

namespace Catalogue

/-- The household with its prices bound to a table of taxes. -/
def taxedHousehold : Registry := SortedMap.insert household "prices" (.primitive (.standard "tax"))

/-- The tables of the household, and a failure instead of any taxes. -/
def taxedSource : Source := fun binding lookup =>
  if binding.table = "tax" then .error none else Source.ofTables householdTables binding lookup

theorem definition_taxedHousehold {x : SeriesId} (hx : household.catalogue.Reaches "housing" x) :
    taxedHousehold.catalogue.definition x = household.catalogue.definition x := by
  have hclosed : ∀ a ∈ ["housing", "food", "rent"], ∀ k ∈ household.catalogue.constituentIds a,
      k ∈ ["housing", "food", "rent"] := by decide
  have hne : x ≠ "prices" := by
    rintro rfl
    exact not_reaches_of_closed hclosed (by decide) (by decide) hx
  exact congrArg Except.ok (SortedMap.find?_insert_of_ne household hne _)

theorem taxedSource_eq {b : Binding} (hb : household.catalogue.Draws "housing" b)
    (lookup : Lookup) :
    taxedSource b lookup = Source.ofTables householdTables b lookup := by
  obtain ⟨x, -, hd⟩ := hb
  have hbound : ∀ entry ∈ household.toList, entry.1 ≠ "tax" ∧
      (entry.2 = .primitive (.standard entry.1) ∨ entry.2.kind = .composed) := by decide
  obtain ⟨hne, hx | hx⟩ := hbound _ (SortedMap.find?_eq_some_iff.1 (Except.ok.inj hd))
  · obtain rfl : b = .standard x := Series.primitive.inj hx
    exact if_neg hne
  · cases hx

end Catalogue

/-- Two catalogues with the same definitions, gaps and failures of what is reached from a series and
two sources with the same answers for what it draws on evaluate it alike, with the same reads, all
of them within reach. In a database after any run, therefore, a series out of reach can be
overwritten with anything, registered or recorded into, and no call changes, unless the row goes to
a table that the call draws on. -/
theorem Store.evaluate_frame [Scan] :
    (∀ (c c' : Catalogue) (source source' : Source) (id : SeriesId) (method : Method)
      (query : Query),
      (∀ x, c.Reaches id x → c'.definition x = c.definition x) →
      (∀ b, c.Draws id b → ∀ lookup, source' b lookup = source b lookup) →
        c'.evaluate source' id method query = c.evaluate source id method query ∧
          ∀ r ∈ (c.evaluate source id method query).reads, c.InReach id r) ∧
    ∀ (steps : List StoreStep) (id other : SeriesId),
      let db := (Session.after steps).database
      ¬ (catalogue db).Reaches id other →
        (∀ now kind json, Unnoticed db ((replaceDefinition now other kind json).run db).2 id) ∧
        (∀ now metadata, Unnoticed db ((registerPrimitive now other metadata).run db).2 id ∧
          Unnoticed db ((registerComposed now other metadata).run db).2 id) ∧
        ((∀ b b', definition db other = .ok (some (.primitive b)) →
            (catalogue db).Draws id b' → sameName b.table b'.table = false) →
          ∀ observation moment, Unnoticed db ((record other observation moment).run db).2 id) := by
  refine ⟨?_, ?_⟩
  · intro c c' source source' id method query hdefinition hsource
    exact ⟨Catalogue.evaluateBelow_eq_of_reaches hdefinition (fun b hb => funext (hsource b hb)) [],
      Catalogue.readsOnly_evaluateBelow [] id⟩
  · intro steps id other db hother
    obtain ⟨registrations, names, h⟩ := Session.exists_holds_after steps
    refine ⟨h.unnoticed_replaceDefinition hother, fun now metadata => ⟨?_, ?_⟩, h.unnoticed_record⟩
    · exact h.unnoticed_registerPrimitive hother now metadata
    · exact h.unnoticed_registerComposed hother now metadata

/-- Housing does not notice a tax on prices. Tea is out of reach of the meal and in a table of its
own: it may be recorded or overwritten. -/
theorem Store.evaluate_frame_tea :
    (Catalogue.taxedHousehold.catalogue.evaluate Catalogue.taxedSource "housing" .value .latest =
      Catalogue.household.catalogue.evaluate (Source.ofTables Catalogue.householdTables) "housing"
        .value .latest) ∧
    let steps := bakery ++ [.createTable "drinks",
      .registerPrimitive (noon 6 (by decide)) "tea" (.ofList [("table_name", "drinks")])]
    let db := (Session.after steps).database
    ¬ (catalogue db).Reaches "meal" "tea" ∧
      (∀ b b', definition db "tea" = .ok (some (.primitive b)) → (catalogue db).Draws "meal" b' →
        sameName b.table b'.table = false) ∧
      (∀ now kind json, Unnoticed db ((replaceDefinition now "tea" kind json).run db).2 "meal") ∧
      ∀ observation moment, Unnoticed db ((record "tea" observation moment).run db).2 "meal" := by
  refine ⟨(Store.evaluate_frame.1 _ _ _ _ "housing" .value .latest
    (fun _ => Catalogue.definition_taxedHousehold) fun _ => Catalogue.taxedSource_eq).1, ?_⟩
  intro steps db
  obtain ⟨htea, hbread, hmeal⟩ :
      definition db "tea" = .ok (some (.primitive (.standard "drinks"))) ∧
        definition db "bread" = .ok (some (.primitive (.standard "FOOD"))) ∧
          definition db "meal" = .ok (some (.composed ⟨[⟨"bread", 3⟩], 3⟩)) := by
    decide +kernel
  have hclosed : ∀ a ∈ ["meal", "bread"], ∀ k ∈ (catalogue db).constituentIds a,
      k ∈ ["meal", "bread"] := by
    simp [Catalogue.constituentIds, catalogue, hbread, hmeal]
  have hreach (x : SeriesId) (hx : x ∉ ["meal", "bread"]) : ¬ (catalogue db).Reaches "meal" x :=
    Catalogue.not_reaches_of_closed hclosed (by decide) hx
  have htables : ∀ b b', definition db "tea" = .ok (some (.primitive b)) →
      (catalogue db).Draws "meal" b' → sameName b.table b'.table = false := by
    clear_value db
    rintro b b' hb ⟨x, hx, hd⟩
    have hd : definition db x = .ok (some (.primitive b')) := hd
    have hmem : x ∈ ["meal", "bread"] := by_contra fun hnot => hreach x hnot hx
    rw [htea] at hb
    cases hb
    rcases List.mem_pair.1 hmem with rfl | rfl
    · rw [hmeal] at hd
      cases hd
    · rw [hbread] at hd
      cases hd
      decide
  have hother := hreach "tea" (by decide)
  obtain ⟨hreplaced, -, hrecorded⟩ := Store.evaluate_frame.2 steps "meal" "tea" hother
  exact ⟨hother, htables, hreplaced, hrecorded htables⟩

/-- The lease is out of reach of the rent, but both are bound to one table. -/
theorem Store.record_noticed_in_shared_table :
    let now := Clock.start.now
    let day : Date := ⟨2024, 1, 1, by decide⟩
    let metadata : Metadata := .ofList [("table_name", "prices")]
    let db := (Session.after [.createTable "prices", .registerPrimitive now "rent" metadata,
      .registerPrimitive now "lease" metadata, .record "rent" ⟨day, 5⟩ now]).database
    let db' := ((record "lease" ⟨day, 6⟩ now.nextSecond).run db).2
    ¬ (catalogue db).Reaches "rent" "lease" ∧
      call db "rent" .value (.on day) = .ok [⟨day, 5⟩] ∧
      call db' "rent" .value (.on day) = .ok [⟨day, 6⟩] := by
  intro now day metadata db db'
  obtain ⟨hclosed, hanswers⟩ :
      (∀ a ∈ ["rent"], ∀ k ∈ (catalogue db).constituentIds a, k ∈ ["rent"]) ∧
        call db "rent" .value (.on day) = .ok [⟨day, 5⟩] ∧
          call db' "rent" .value (.on day) = .ok [⟨day, 6⟩] := by
    decide +kernel
  exact ⟨Catalogue.not_reaches_of_closed hclosed (by decide) (by decide), hanswers⟩

end TimeSeries
