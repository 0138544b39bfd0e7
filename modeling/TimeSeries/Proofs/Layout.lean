import Mathlib.Data.List.Pairwise
import TimeSeries.Proofs.Codecs
import TimeSeries.Store

/-!
How a store lays out its database: the catalogue comes first, with a row for each registration, and
every other table has the columns of a provisioned one. No two of the tables have the same name,
whatever the case of its letters.
-/
namespace TimeSeries

open Text (sameName)

/-- A definition under an identifier, and when it was registered. -/
structure Registration where
  id : SeriesId
  series : Series
  stamp : String

/-- The binding that metadata asks for, with standard names for the columns it leaves out. -/
def Binding.asked (metadata : Metadata) (table : String) : Binding where
  table := table
  dateColumn := (metadata.find? "date_column").getD (standard table).dateColumn
  valueColumn := (metadata.find? "value_column").getD (standard table).valueColumn
  createdAtColumn := (metadata.find? "created_at_column").getD (standard table).createdAtColumn

theorem Binding.ofMetadata_eq_ok_iff {metadata : Metadata} {tables : List TableSchema} {b : Binding} :
    ofMetadata metadata tables = .ok b ↔
      metadata.find? "table_name" = some b.table ∧ b = asked metadata b.table ∧
        b.validate tables = .ok () := by
  rw [ofMetadata]
  cases htable : metadata.find? "table_name" with
  | none => exact ⟨nofun, nofun⟩
  | some table =>
    have hbind : (do
        (asked metadata table).validate tables
        return asked metadata table) = .ok b ↔
          some table = some b.table ∧ b = asked metadata b.table ∧ b.validate tables = .ok () := by
      rw [bind_eq_ok_iff]
      constructor
      · rintro ⟨u, hvalid, hb⟩
        cases hb
        exact ⟨rfl, rfl, hvalid⟩
      · rintro ⟨ht, hb, hvalid⟩
        cases ht
        rw [← hb]
        exact ⟨(), hvalid, rfl⟩
    exact hbind

namespace Store

def Registration.row (r : Registration) : Row :=
  [.text r.id, .text r.series.kind.name, .text (Codec.series.write r.series), .text r.stamp]

def catalogueTable (registrations : List Registration) : Table :=
  ⟨catalogueName, catalogueColumns, registrations.map Registration.row⟩

def primitiveTable (name : String) (rows : List Row) : Table := ⟨name, primitiveColumns, rows⟩

/-- The first definition registered under an identifier. -/
def registered? (registrations : List Registration) (id : SeriesId) : Option Series :=
  (registrations.find? fun r => r.id == id).map (·.series)

theorem registered?_eq_none_iff {registrations : List Registration} {id : SeriesId} :
    registered? registrations id = none ↔ ∀ r ∈ registrations, r.id ≠ id := by
  simp [registered?]

theorem registered?_append (registrations : List Registration) (r : Registration) (id : SeriesId) :
    registered? (registrations ++ [r]) id =
      (registered? registrations id).or (if r.id = id then some r.series else none) := by
  rw [registered?, List.find?_append, List.find?_singleton, registered?]
  cases registrations.find? fun r => r.id == id with
  | some r' => rfl
  | none => by_cases hid : r.id = id <;> simp [hid]

end Store

open Store

/-- The catalogue and some provisioned tables are all the tables that there are. -/
structure Database.Layout (db : Database) (registrations : List Registration)
    (names : List String) (rows : String → List Row) : Prop where
  tables : db.tables =
    catalogueTable registrations :: names.map fun name => primitiveTable name (rows name)
  differ : (catalogueName :: names).Pairwise fun m n => sameName m n = false

namespace Database.Layout

variable {db : Database} {registrations : List Registration} {names : List String}
  {rows : String → List Row}

/-! ## Finding tables -/

/-- A table is the catalogue or one of the provisioned tables. -/
theorem cases_table (h : db.Layout registrations names rows) {t : Table} (ht : t ∈ db.tables) :
    t = catalogueTable registrations ∨ ∃ n ∈ names, t = primitiveTable n (rows n) := by
  rw [h.tables] at ht
  rcases List.mem_cons.1 ht with rfl | ht
  · exact .inl rfl
  · obtain ⟨n, hn, rfl⟩ := List.mem_map.1 ht
    exact .inr ⟨n, hn, rfl⟩

theorem mem_catalogue (h : db.Layout registrations names rows) :
    catalogueTable registrations ∈ db.tables := h.tables ▸ List.mem_cons_self

theorem mem_primitive (h : db.Layout registrations names rows) {n : String} (hn : n ∈ names) :
    primitiveTable n (rows n) ∈ db.tables :=
  h.tables ▸ List.mem_cons_of_mem _ (List.mem_map_of_mem hn)

theorem not_sameName_catalogue (h : db.Layout registrations names rows) {n : String}
    (hn : n ∈ names) : sameName catalogueName n = false := (List.pairwise_cons.1 h.differ).1 n hn

theorem name_ne_catalogue (h : db.Layout registrations names rows) {n : String} (hn : n ∈ names) :
    n ≠ catalogueName := by
  rintro rfl
  have hnot := h.not_sameName_catalogue hn
  rw [Text.sameName_self] at hnot
  cases hnot

theorem eq_of_sameName (h : db.Layout registrations names rows) {m n : String} (hm : m ∈ names)
    (hn : n ∈ names) (hsame : sameName m n = true) : m = n := by
  by_contra hne
  have hsymm : Std.Symm fun m n : String => sameName m n = false :=
    ⟨fun m n h => (Text.sameName_comm n m).trans h⟩
  have hdiffer : sameName m n = false :=
    List.Pairwise.forall (List.pairwise_cons.1 h.differ).2 hm hn hne
  rw [hsame] at hdiffer
  cases hdiffer

/-- Two tables of the same name are one. -/
theorem table_unique (h : db.Layout registrations names rows) {t u : Table} (ht : t ∈ db.tables)
    (hu : u ∈ db.tables) (hsame : sameName t.name u.name = true) : t = u := by
  rcases h.cases_table ht with rfl | ⟨m, hm, rfl⟩
  · rcases h.cases_table hu with rfl | ⟨n, hn, rfl⟩
    · rfl
    · exact absurd (hsame.symm.trans (h.not_sameName_catalogue hn)) (by decide)
  · rcases h.cases_table hu with rfl | ⟨n, hn, rfl⟩
    · have hdiffer := (Text.sameName_comm _ _).trans (h.not_sameName_catalogue hm)
      exact absurd (hsame.symm.trans hdiffer) (by decide)
    · rw [h.eq_of_sameName hm hn hsame]

theorem table?_eq_some (h : db.Layout registrations names rows) {t : Table} {name : String}
    (ht : t ∈ db.tables) (hname : sameName t.name name = true) : db.table? name = some t := by
  cases hfind : db.table? name with
  | none =>
    have hnot := List.find?_eq_none.1 hfind t ht
    exact absurd hname hnot
  | some u =>
    have hu : u ∈ db.tables := List.mem_of_find?_eq_some hfind
    have husame : sameName u.name name = true :=
      List.find?_some (p := fun t : Table => sameName t.name name) hfind
    have hsame : sameName u.name t.name = true :=
      Text.sameName_trans husame ((Text.sameName_comm name t.name).trans hname)
    rw [h.table_unique hu ht hsame]

theorem table?_catalogue (h : db.Layout registrations names rows) :
    db.table? catalogueName = some (catalogueTable registrations) :=
  h.table?_eq_some h.mem_catalogue (Text.sameName_self catalogueName)

theorem table?_primitive (h : db.Layout registrations names rows) {n name : String} (hn : n ∈ names)
    (hname : sameName n name = true) : db.table? name = some (primitiveTable n (rows n)) :=
  h.table?_eq_some (h.mem_primitive hn) hname

/-! ## Reading the catalogue -/

/-- The column of identifiers. -/
def idColumn : Column := { name := "series_id", declared := "TEXT", primary := true, unique := true }

theorem holds_idColumn (s id : String) : idColumn.holds (.text s) id = (s == id) := by
  have hstore : idColumn.store (.text id) = .text id := rfl
  rw [Column.holds, hstore, Bool.eq_iff_iff, beq_iff_eq]
  constructor
  · exact Cell.eq_of_same_text
  · rintro rfl
    simp [Cell.same, Cell.le]

theorem identifierColumn?_eq (h : db.Layout registrations names rows) :
    identifierColumn? db = some (catalogueTable registrations, idColumn, 0) := by
  rw [identifierColumn?, h.table?_catalogue]
  rfl

theorem isTaken?_eq (h : db.Layout registrations names rows) (id : SeriesId) :
    isTaken? db id = some (registered? registrations id).isSome := by
  have hany : (registrations.any fun r => idColumn.holds (.text r.id) id) =
      (registered? registrations id).isSome := by
    rw [registered?, Option.isSome_map, List.isSome_find?]
    congr 1
    funext r
    exact holds_idColumn r.id id
  rw [isTaken?, h.identifierColumn?_eq, ← hany]
  show some ((registrations.map Registration.row).any _) = _
  rw [List.any_map]
  rfl

/-- The row of a registration as the catalogue is read. -/
def Registration.entry (r : Registration) : Store.Entry :=
  ⟨.text r.id, .text r.series.kind.name, .text (Codec.series.write r.series)⟩

theorem entries?_eq (h : db.Layout registrations names rows) :
    entries? db = some (registrations.map Registration.entry) := by
  rw [entries?, h.identifierColumn?_eq]
  show some ((registrations.map Registration.row).map _) = _
  rw [List.map_map]
  rfl

theorem series?_entry (r : Registration) : (Registration.entry r).series? = some r.series := by
  rw [Registration.entry, Store.Entry.series?, Codec.read_write_series]
  rfl

theorem definition_eq (h : db.Layout registrations names rows) (id : SeriesId) :
    definition db id = .ok (registered? registrations id) := by
  have hentry : entryUnder? db id =
      some ((registrations.find? fun r => r.id == id).map Registration.entry) := by
    rw [entryUnder?, h.identifierColumn?_eq, h.entries?_eq]
    show some ((registrations.map Registration.entry).find? _) = _
    rw [List.find?_map]
    congr 3
    funext r
    exact holds_idColumn r.id id
  rw [definition, hentry, registered?]
  cases registrations.find? fun r => r.id == id with
  | none => rfl
  | some r => simp only [Option.map_some, series?_entry]

/-! ## Writing to the catalogue -/

theorem clash_row (registrations : List Registration) (r r' : Registration) :
    (catalogueTable registrations).clash (Registration.row r) (Registration.row r') =
      (r.id == r'.id) := by
  have hsame : Cell.same (.text r.id) (.text r'.id) = (r.id == r'.id) := holds_idColumn r.id r'.id
  simp [Table.clash, catalogueTable, catalogueColumns, Registration.row, Column.same, Column.key,
    Collation.key, hsame]

theorem add?_row {r : Registration} (hnew : ∀ r' ∈ registrations, r'.id ≠ r.id) :
    (catalogueTable registrations).add? (Registration.row r) =
      some (catalogueTable (registrations ++ [r])) := by
  have hnumbering : (catalogueTable registrations).numbering? = none := rfl
  have hclash : ∀ other ∈ (catalogueTable registrations).rows,
      (!(catalogueTable registrations).clash (Registration.row r) other) = true := by
    intro other hother
    obtain ⟨r', hr', rfl⟩ := List.mem_map.1 hother
    rw [clash_row, Bool.not_eq_true', beq_eq_false_iff_ne]
    exact (hnew r' hr').symm
  have hadmits : (catalogueTable registrations).admits (Registration.row r) = true := by
    rw [Table.admits, List.all_eq_true.2 hclash, Bool.and_true]
    rfl
  simp only [Table.add?, Table.numbered?, hnumbering, Option.bind_eq_bind, Option.bind_some,
    hadmits, if_true, Table.place]
  simp [catalogueTable]

/-- The cells of a registration by the columns of the catalogue. -/
def Registration.given (r : Registration) : List (String × Cell) :=
  [("series_id", .text r.id), ("kind", .text r.series.kind.name),
    ("definition_json", .text (Codec.series.write r.series)), ("registered_at", .text r.stamp)]

theorem rowOf?_given (registrations : List Registration) (r : Registration) :
    (catalogueTable registrations).rowOf? (Registration.given r) = some (Registration.row r) := rfl

theorem insert?_eq {db : Database} {name : String} {t : Table} (h : db.table? name = some t)
    (given : List (String × Cell)) :
    db.insert? name given = ((t.rowOf? given).bind t.add?).map db.setTable := by
  rw [insert?, h]
  cases hrow : t.rowOf? given with
  | none => simp [hrow]
  | some row => cases hadd : t.add? row <;> simp [hrow, hadd]

/-- A registration under a new identifier is not refused. -/
theorem exists_insert_registration (h : db.Layout registrations names rows) {r : Registration}
    (hnew : ∀ r' ∈ registrations, r'.id ≠ r.id) :
    ∃ db', db.insert? catalogueName (Registration.given r) = some db' ∧
      db'.Layout (registrations ++ [r]) names rows := by
  refine ⟨db.setTable (catalogueTable (registrations ++ [r])), ?_, ?_, h.differ⟩
  · rw [insert?_eq h.table?_catalogue, rowOf?_given, Option.bind_some, add?_row hnew]
    rfl
  · have hothers : (names.map fun name => primitiveTable name (rows name)).map (fun t =>
        if t.name = catalogueName then catalogueTable (registrations ++ [r]) else t) =
          names.map fun name => primitiveTable name (rows name) := by
      rw [List.map_map]
      apply List.map_congr_left
      intro n hn
      exact if_neg (h.name_ne_catalogue hn)
    rw [setTable, h.tables]
    show List.map _ _ = _
    rw [List.map_cons]
    exact congrArg₂ List.cons (if_pos rfl) hothers

/-! ## Provisioned tables -/

/-- The row that a provisioned table makes of cells by column name. -/
def primitiveRow (given : List (String × Cell)) : Row :=
  primitiveColumns.map fun c =>
    match given.find? fun (name, _) => sameName name c.name with
    | some (_, cell) => c.store cell
    | none => c.store c.initial

theorem rowOf?_primitive {name : String} {rows : List Row} {given : List (String × Cell)} {row : Row}
    (h : (primitiveTable name rows).rowOf? given = some row) : row = primitiveRow given := by
  rw [Table.rowOf?] at h
  split at h
  · exact (Option.some.inj h).symm
  · cases h

theorem add?_primitive {name : String} {rows : List Row} {row : Row} {t : Table}
    (h : (primitiveTable name rows).add? row = some t) :
    t = primitiveTable name (rows ++ [row]) := by
  have hnumbering : (primitiveTable name rows).numbering? = none := rfl
  simp only [Table.add?, Table.numbered?, hnumbering, Option.bind_eq_bind, Option.bind_some,
    Table.place] at h
  split at h
  · exact (Option.some.inj h).symm
  · cases h

/-- A row put into a table other than the catalogue goes to the end of it, and no other table
changes. -/
theorem insert_primitive (h : db.Layout registrations names rows) {name : String}
    {given : List (String × Cell)} {db' : Database} (hinsert : db.insert? name given = some db')
    (hname : sameName catalogueName name = false) :
    db'.Layout registrations names fun n =>
      if sameName n name then rows n ++ [primitiveRow given] else rows n := by
  cases htable : db.table? name with
  | none =>
    rw [insert?, htable] at hinsert
    cases hinsert
  | some t =>
    have ht : t ∈ db.tables := List.mem_of_find?_eq_some htable
    have hsame := List.find?_some (p := fun t : Table => sameName t.name name) htable
    rw [insert?_eq htable, Option.map_eq_some_iff] at hinsert
    obtain ⟨t', ht', rfl⟩ := hinsert
    obtain ⟨row, hrow, hadd⟩ := Option.bind_eq_some_iff.1 ht'
    rcases h.cases_table ht with rfl | ⟨n, hn, rfl⟩
    · exact absurd (hsame.symm.trans hname) (by decide)
    · obtain rfl := rowOf?_primitive hrow
      obtain rfl := add?_primitive hadd
      have hother (m : String) (hm : m ∈ names) :
          (if m = n then primitiveTable n (rows n ++ [primitiveRow given])
            else primitiveTable m (rows m)) = primitiveTable m
              (if sameName m name then rows m ++ [primitiveRow given] else rows m) := by
        by_cases hmn : m = n
        · subst hmn
          have hsame : sameName m name = true := hsame
          rw [if_pos rfl, if_pos hsame]
        · have hnot : ¬ sameName m name = true := by
            intro hm'
            exact hmn (h.eq_of_sameName hm hn
              (Text.sameName_trans hm' ((Text.sameName_comm name n).trans hsame)))
          rw [if_neg hmn, if_neg hnot]
      refine ⟨?_, h.differ⟩
      rw [setTable, h.tables]
      show List.map _ _ = _
      rw [List.map_cons, List.map_map]
      exact congrArg₂ List.cons (if_neg (h.name_ne_catalogue hn).symm) (List.map_congr_left hother)

theorem layout_of_tables {db' : Database} (h : db.Layout registrations names rows)
    (htables : db'.tables = db.tables) : db'.Layout registrations names rows :=
  ⟨htables.trans h.tables, h.differ⟩

/-- A table under a new name comes last. -/
theorem layout_create {db' : Database} (h : db.Layout registrations names rows) {name : String}
    (hnew : db.table? name = none) (hrows : rows name = [])
    (htables : db'.tables = db.tables ++ [primitiveTable name []]) :
    db'.Layout registrations (names ++ [name]) rows := by
  have hdiffer (t : Table) (ht : t ∈ db.tables) : sameName t.name name = false :=
    Bool.eq_false_iff.2 (List.find?_eq_none.1 hnew t ht)
  constructor
  · rw [htables, h.tables, List.map_append, ← hrows]
    rfl
  · rw [← List.cons_append, List.pairwise_append]
    refine ⟨h.differ, List.pairwise_singleton _ _, ?_⟩
    intro m hm n hn
    obtain rfl := List.mem_singleton.1 hn
    rcases List.mem_cons.1 hm with rfl | hm
    · exact hdiffer (catalogueTable registrations) h.mem_catalogue
    · exact hdiffer (primitiveTable m (rows m)) (h.mem_primitive hm)

/-! ## Bindings -/

theorem checkColumn_catalogue (registrations : List Registration) (column : String) :
    Binding.checkColumn (catalogueTable registrations).schema "value" column .integer ≠ .ok () := by
  have htext : ∀ c ∈ catalogueColumns.map Column.schema, c.type = .text := by decide
  intro h
  rw [Binding.checkColumn] at h
  split at h
  · cases h
  · next found hfound =>
    have hmem : found ∈ catalogueColumns.map Column.schema := List.mem_of_find?_eq_some hfound
    rw [htext found hmem] at h
    cases h

/-- A binding that is accepted is one to a provisioned table. -/
theorem exists_bound (h : db.Layout registrations names rows) {b : Binding}
    (hvalid : b.validate db.schemas = .ok ()) :
    ∃ n ∈ names, b.validate [(primitiveTable n []).schema] = .ok () := by
  rw [Binding.validate, bind_eq_ok_iff] at hvalid
  obtain ⟨u, hnames, hvalid⟩ := hvalid
  cases hfind : TableSchema.find? db.schemas b.table with
  | none =>
    rw [hfind] at hvalid
    cases hvalid
  | some schema =>
    have hsame := List.find?_some (p := fun t : TableSchema => sameName t.name b.table) hfind
    obtain ⟨t, ht, rfl⟩ := List.mem_map.1 (List.mem_of_find?_eq_some hfind)
    have ht : t ∈ db.tables := (List.mem_filter.1 ((Sorted.mem_sort _ _ _).1 ht)).1
    rw [hfind] at hvalid
    rcases h.cases_table ht with rfl | ⟨n, hn, rfl⟩
    · obtain ⟨_, -, hvalid⟩ := bind_eq_ok_iff.1 hvalid
      obtain ⟨_, hvalue, -⟩ := bind_eq_ok_iff.1 hvalid
      exact absurd hvalue (checkColumn_catalogue registrations b.valueColumn)
    · refine ⟨n, hn, ?_⟩
      have hfound : TableSchema.find? [(primitiveTable n []).schema] b.table =
          some (primitiveTable n []).schema := List.find?_cons_of_pos hsame
      rw [Binding.validate, bind_eq_ok_iff]
      refine ⟨u, hnames, ?_⟩
      rw [hfound]
      exact hvalid

/-- The table that a binding is accepted for has its name. -/
theorem sameName_of_validate {t : TableSchema} {b : Binding} (h : b.validate [t] = .ok ()) :
    sameName t.name b.table = true := by
  rw [Binding.validate, bind_eq_ok_iff] at h
  obtain ⟨_, -, h⟩ := h
  cases hfind : TableSchema.find? [t] b.table with
  | none =>
    rw [hfind] at h
    cases h
  | some found =>
    obtain rfl := List.mem_singleton.1 (List.mem_of_find?_eq_some hfind)
    exact List.find?_some (p := fun t : TableSchema => sameName t.name b.table) hfind

/-- A binding to a provisioned table is not one to the catalogue. -/
theorem not_sameName_of_bound (h : db.Layout registrations names rows) {n : String} (hn : n ∈ names)
    {b : Binding} (hvalid : b.validate [(primitiveTable n []).schema] = .ok ()) :
    sameName catalogueName b.table = false := by
  have hsame := sameName_of_validate hvalid
  have hdiffer := h.not_sameName_catalogue hn
  by_contra hnot
  have hcatalogue : sameName catalogueName b.table = true := Bool.not_eq_false _ ▸ hnot
  have hboth : sameName catalogueName n = true :=
    Text.sameName_trans hcatalogue ((Text.sameName_comm b.table n).trans hsame)
  rw [hdiffer] at hboth
  cases hboth

end Database.Layout
end TimeSeries
