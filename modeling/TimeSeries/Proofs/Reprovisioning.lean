import TimeSeries.Proofs.CatalogueRuns
import TimeSeries.Proofs.Indexes

/-!
Provisioning a table for a second time. Once it has succeeded it does so again under every spelling
of the name, whatever is done in between, and changes nothing. Once it has failed there may be a
table more than before: the table comes first, and it stays when its index is refused.
-/
namespace TimeSeries

open Text (sameName)
open Store

/-! ## Spellings of a name -/

namespace Text

/-- A character stays as it is, or is a letter and becomes one. -/
theorem toLower_cases (c : Char) :
    c.toLower = c ∨ c.isAlpha = true ∧ c.toLower.isAlpha = true := by
  by_cases h : c.val ≥ 'A'.val ∧ c.val ≤ 'Z'.val
  · have hval : c.toLower.val = c.val + 32 := congrArg Char.val (dif_pos h)
    have hlower : 97 ≤ c.val + 32 ∧ c.val + 32 ≤ 122 := by grind
    rw [← hval] at hlower
    refine .inr ⟨Bool.or_eq_true_iff.2 (.inl (decide_eq_true h)),
      Bool.or_eq_true_iff.2 (.inr ?_)⟩
    exact Bool.and_eq_true_iff.2 ⟨decide_eq_true hlower.1, decide_eq_true hlower.2⟩
  · exact .inl (dif_neg h)

theorem isAlpha_toLower (c : Char) :
    (c.toLower.isAlpha || c.toLower == '_') = (c.isAlpha || c == '_') := by
  rcases toLower_cases c with h | ⟨hc, hlower⟩
  · rw [h]
  · rw [hc, hlower, Bool.true_or, Bool.true_or]

theorem isWordChar_toLower (c : Char) : isWordChar c.toLower = isWordChar c := by
  rcases toLower_cases c with h | ⟨hc, hlower⟩
  · rw [h]
  · show (c.toLower.isAlpha || _ || _) = (c.isAlpha || _ || _)
    rw [hc, hlower, Bool.true_or, Bool.true_or, Bool.true_or, Bool.true_or]

theorem isIdentifier_lower (name : String) : isIdentifier (lower name) = isIdentifier name := by
  rw [isIdentifier, isIdentifier, lower, String.toList_ofList]
  cases name.toList with
  | nil => rfl
  | cons c cs =>
    have hword : isWordChar ∘ Char.toLower = isWordChar := funext isWordChar_toLower
    rw [List.map_cons]
    dsimp only
    rw [isAlpha_toLower, List.all_map, hword]

section SameName
variable {name other : String} (h : sameName name other = true)
include h

theorem lower_eq_of_sameName : lower other = lower name := (beq_iff_eq.1 h).symm

theorem isIdentifier_congr : isIdentifier other = isIdentifier name := by
  rw [← isIdentifier_lower other, lower_eq_of_sameName h, isIdentifier_lower]

theorem sameName_append_right (suffix : String) :
    sameName (name ++ suffix) (other ++ suffix) = true := by
  rw [sameName_append, h]

end SameName

theorem length_eq_of_sameName {name other : String} (h : sameName name other = true) :
    name.length = other.length := by
  have hlength := congrArg String.length (beq_iff_eq.1 h)
  simpa only [lower, String.length_ofList, List.length_map, String.length_toList] using hlength

end Text

namespace Database

variable {db db' : Database} {name other : String}

theorem isReserved_congr (h : sameName name other = true) : isReserved other = isReserved name := by
  rw [isReserved, isReserved, Text.lower_eq_of_sameName h]

theorem table?_congr (h : sameName name other = true) : db.table? other = db.table? name := by
  exact congrArg (db.tables.find? ·) (funext fun t => Text.sameName_congr_right h t.name)

theorem index?_congr (h : sameName name other = true) : db.index? other = db.index? name := by
  exact congrArg (db.indexes.find? ·) (funext fun i => Text.sameName_congr_right h i.name)

theorem isSome_table? (db : Database) (name : String) :
    (db.table? name).isSome = (db.tables.map (·.name)).any (sameName · name) := by
  rw [table?, List.isSome_find?, List.any_map]
  rfl

theorem ensureTable?_primitiveColumns (hreserved : isReserved name = false)
    (htable : db.table? name = none) (hindex : db.index? name = none) :
    db.ensureTable? name primitiveColumns =
      some { db with tables := db.tables ++ [primitiveTable name []] } := by
  have hcolumns : (primitiveColumns.isEmpty || !distinctNames primitiveColumns ||
      decide (1 < primitiveColumns.countP (·.primary))) = false := by decide
  simp only [Bool.or_eq_false_iff, Bool.not_eq_false'] at hcolumns
  obtain ⟨⟨hempty, hdistinct⟩, hprimary⟩ := hcolumns
  simp [ensureTable?, createTable?, hreserved, htable, hindex, hempty, hdistinct, hprimary,
    primitiveTable]

/-- The table stands with its index, and provisioning it has nothing left to do. -/
structure Provisions (db : Database) (table : String) : Prop where
  plain : ensureIdentifier table = .ok ()
  unreserved : isReserved table = false
  hasTable : (db.table? table).isSome = true
  indexUnreserved : isReserved (dateIndex table).name = false
  noTable : db.table? (dateIndex table).name = none
  hasIndex : (db.index? (dateIndex table).name).isSome = true

/-- The table can be made, and its index cannot. -/
def OnlyIndexFails (db : Database) (table : String) : Prop :=
  ensureIdentifier table = .ok () ∧ isReserved table = false ∧ db.table? table = none ∧
    db.index? table = none ∧
    (isReserved (dateIndex table).name = true ∨ (db.table? (dateIndex table).name).isSome = true)

instance (db : Database) (table : String) : Decidable (db.OnlyIndexFails table) :=
  inferInstanceAs (Decidable (_ ∧ _))

/-- The name of an index is never that of its table. -/
theorem sameName_dateIndex (table : String) : sameName table (dateIndex table).name = false := by
  by_contra h
  have hlength := Text.length_eq_of_sameName (Bool.not_eq_false _ ▸ h)
  have hsuffix : "_date_idx".length = 9 := rfl
  rw [dateIndex, String.length_append, hsuffix] at hlength
  omega

theorem table?_concat {t : Table} :
    ({ db with tables := db.tables ++ [t] } : Database).table? name =
      (db.table? name).or (if sameName t.name name then some t else none) := by
  rw [table?, table?, List.find?_append, List.find?_singleton]

/-- Beside a new table its index is made, unless the name of the index is refused. -/
theorem ensureIndex?_concat {table : String} (hnew : db.table? table = none) :
    let db' : Database := { db with tables := db.tables ++ [primitiveTable table []] }
    db'.ensureIndex? (dateIndex table) = none ↔
      isReserved (dateIndex table).name = true ∨
        (db.table? (dateIndex table).name).isSome = true := by
  intro db'
  have htable : db'.table? table = some (primitiveTable table []) := by
    rw [table?_concat, hnew, Option.none_or]
    exact if_pos (Text.sameName_self table)
  have hindex : db'.table? (dateIndex table).name = db.table? (dateIndex table).name := by
    rw [table?_concat]
    show (db.table? _).or (if sameName table (dateIndex table).name then _ else _) = _
    rw [sameName_dateIndex, if_neg Bool.false_ne_true, Option.or_none]
  have hcolumns : ((dateIndex table).columns.all fun c =>
      ((primitiveTable table []).column? c).isSome) = true :=
    (by decide : ((dateIndex "").columns.all fun c =>
      ((primitiveTable "" []).column? c).isSome) = true)
  rw [ensureIndex?, show (dateIndex table).table = table from rfl, htable, hindex,
    Option.bind_eq_bind, Option.bind_some, hcolumns, ← Bool.or_eq_true]
  constructor
  · intro hnone
    by_contra hfree
    rw [if_neg hfree, if_pos rfl] at hnone
    split at hnone <;> cases hnone
  · exact fun h => if_pos h

theorem index?_concat {index : Index} :
    ({ db with indexes := db.indexes ++ [index] } : Database).index? name =
      (db.index? name).or (if sameName index.name name then some index else none) := by
  rw [index?, index?, List.find?_append, List.find?_singleton]

theorem provisions_of_ensureIndex? {table : String} (hname : ensureIdentifier table = .ok ())
    (hreserved : isReserved table = false) (h : db.ensureIndex? (dateIndex table) = some db') :
    db'.Provisions table := by
  obtain ⟨hunreserved, hnone, t, ht, hcases⟩ := ensureIndex?_cases h
  have hthere : (db.table? table).isSome = true := Option.isSome_iff_exists.2 ⟨t, ht⟩
  rcases hcases with ⟨rfl, hindex⟩ | ⟨-, rfl⟩
  · exact ⟨hname, hreserved, hthere, hunreserved, hnone, hindex⟩
  · refine ⟨hname, hreserved, hthere, hunreserved, hnone, ?_⟩
    rw [index?_concat, Text.sameName_self]
    simp

end Database

namespace Store

open Database

/-- A table without an index is left where only the index fails. -/
theorem run_createPrimitiveTable_of_onlyIndexFails {db : Database} {table : String}
    (h : db.OnlyIndexFails table) : (createPrimitiveTable table).run db =
      (.error (.backingStore none),
        { db with tables := db.tables ++ [primitiveTable table []] }) := by
  obtain ⟨hname, hreserved, hmissing, hfree, hfails⟩ := h
  rw [run_createPrimitiveTable, hname, ensureTable?_primitiveColumns hreserved hmissing hfree]
  dsimp only
  rw [(ensureIndex?_concat hmissing).2 hfails]

/-- What else provisioning comes to: it fails and changes nothing, or it succeeds and leaves a table
with its index. -/
theorem createPrimitiveTable_outcomes (db : Database) (table : String) :
    let result := (createPrimitiveTable table).run db
    db.OnlyIndexFails table ∨ result.1 ≠ .ok () ∧ result.2 = db ∨
      result.1 = .ok () ∧ result.2.Provisions table := by
  rcases run_createPrimitiveTable_cases db table with
    ⟨e, hrun⟩ | ⟨hname, db', htable, ⟨hindex, hrun⟩ | ⟨db'', hindex, hrun⟩⟩ <;> rw [hrun]
  · exact .inr (.inl ⟨nofun, rfl⟩)
  · obtain ⟨hreserved, ⟨rfl, -⟩ | ⟨hmissing, hfree, rfl⟩⟩ := ensureTable?_cases htable
    · exact .inr (.inl ⟨nofun, rfl⟩)
    · have hfails := (ensureIndex?_concat hmissing).1 hindex
      exact .inl ⟨hname, hreserved, hmissing, hfree, hfails⟩
  · have hreserved := (ensureTable?_cases htable).1
    exact .inr (.inr ⟨rfl, provisions_of_ensureIndex? hname hreserved hindex⟩)

/-- Where the table stands with its index, provisioning succeeds and changes nothing. -/
theorem run_createPrimitiveTable_of_provisions {db : Database} {table : String}
    (h : db.Provisions table) : (createPrimitiveTable table).run db = (.ok (), db) := by
  obtain ⟨t, ht⟩ := Option.isSome_iff_exists.1 h.hasTable
  have htable : db.ensureTable? table primitiveColumns = some db := by
    rw [ensureTable?, h.unreserved, h.hasTable]
    rfl
  have hindex : db.ensureIndex? (dateIndex table) = some db := by
    rw [ensureIndex?, show (dateIndex table).table = table from rfl, ht, h.indexUnreserved,
      h.noTable, h.hasIndex]
    rfl
  rw [run_createPrimitiveTable, h.plain, htable]
  dsimp only
  rw [hindex]

end Store

namespace Database.Provisions

variable {db db' : Database} {table : String}

/-- Another spelling of the name is as good. -/
theorem congr (h : db.Provisions table) {other : String} (hsame : sameName table other = true) :
    db.Provisions other := by
  have hindex : sameName (dateIndex table).name (dateIndex other).name = true :=
    Text.sameName_append_right hsame "_date_idx"
  constructor
  · rw [ensureIdentifier_eq_ok_iff, Text.isPlainName_iff, Text.isIdentifier_congr hsame,
      ← Text.isPlainName_iff, ← ensureIdentifier_eq_ok_iff]
    exact h.plain
  · exact (isReserved_congr hsame).trans h.unreserved
  · rw [table?_congr hsame]
    exact h.hasTable
  · exact (isReserved_congr hindex).trans h.indexUnreserved
  · rw [table?_congr hindex]
    exact h.noTable
  · rw [index?_congr hindex]
    exact h.hasIndex

/-- Only the names of tables and the indexes matter. -/
theorem of_names (h : db.Provisions table)
    (hnames : db'.tables.map (·.name) = db.tables.map (·.name))
    (hindexes : db'.indexes = db.indexes) : db'.Provisions table := by
  have htable (name : String) : (db'.table? name).isSome = (db.table? name).isSome := by
    rw [isSome_table?, isSome_table?, hnames]
  refine ⟨h.plain, h.unreserved, (htable table).trans h.hasTable, h.indexUnreserved, ?_, ?_⟩
  · rw [← Option.isNone_iff_eq_none, ← Option.isSome_eq_false_iff, htable, h.noTable]
    rfl
  · rw [index?, hindexes]
    exact h.hasIndex

/-- A new table cannot take the name of an index. -/
theorem ensureTable? (h : db.Provisions table) {name : String} {columns : List Column}
    (hmade : db.ensureTable? name columns = some db') : db'.Provisions table := by
  obtain ⟨-, ⟨rfl, -⟩ | ⟨-, hfree, rfl⟩⟩ := ensureTable?_cases hmade
  · exact h
  · have hother : sameName name (dateIndex table).name = false := by
      by_contra hsame
      have hindex := h.hasIndex
      rw [index?_congr (Bool.not_eq_false _ ▸ hsame), hfree] at hindex
      cases hindex
    refine ⟨h.plain, h.unreserved, ?_, h.indexUnreserved, ?_, h.hasIndex⟩
    · rw [table?_concat, Option.isSome_or, h.hasTable, Bool.true_or]
    · rw [table?_concat, h.noTable, Option.none_or]
      show (if sameName name (dateIndex table).name then _ else _) = none
      rw [hother, if_neg Bool.false_ne_true]

theorem ensureIndex? (h : db.Provisions table) {index : Index}
    (hmade : db.ensureIndex? index = some db') : db'.Provisions table := by
  obtain ⟨-, -, t, -, ⟨rfl, -⟩ | ⟨-, rfl⟩⟩ := ensureIndex?_cases hmade
  · exact h
  · refine ⟨h.plain, h.unreserved, h.hasTable, h.indexUnreserved, h.noTable, ?_⟩
    rw [index?_concat, Option.isSome_or, h.hasIndex, Bool.true_or]

theorem createPrimitiveTable (h : db.Provisions table) (other : String) :
    ((Store.createPrimitiveTable other).run db).2.Provisions table := by
  rcases run_createPrimitiveTable_cases db other with
    ⟨e, hrun⟩ | ⟨-, db', htable, ⟨-, hrun⟩ | ⟨db'', hindex, hrun⟩⟩ <;> rw [hrun]
  · exact h
  · exact h.ensureTable? htable
  · exact (h.ensureTable? htable).ensureIndex? hindex

end Database.Provisions

namespace Session

variable {s : Session} {registrations : List Registration} {names : List String}

theorem Holds.names_eq (h : s.Holds registrations names) :
    s.database.tables.map (·.name) = catalogueName :: names := by
  rw [h.layout.tables, List.map_cons, List.map_map]
  show catalogueName :: names.map (fun n => n) = _
  rw [List.map_id']

/-- Only provisioning makes tables. -/
theorem Holds.names_perform (h : s.Holds registrations names) {step : StoreStep}
    (hstep : ∀ table, step ≠ .createTable table) :
    (s.perform step).database.tables.map (·.name) = s.database.tables.map (·.name) := by
  obtain ⟨registrations', h'⟩ :
      ∃ registrations', (s.perform step).Holds registrations' names := by
    cases step with
    | createTable table => exact absurd rfl (hstep table)
    | registerPrimitive now id metadata => exact h.registerPrimitive now id metadata
    | registerComposed now id metadata => exact h.registerComposed now id metadata
    | record id observation moment => exact ⟨registrations, h.record id observation moment⟩
    | list => exact ⟨registrations, h⟩
    | call id method query => exact ⟨registrations, h⟩
    | reopen => exact ⟨registrations, h.reopen⟩
  rw [h'.names_eq, h.names_eq]

/-- No step undoes what provisioning did. -/
theorem Holds.provisions_perform (h : s.Holds registrations names) {table : String}
    (htable : s.database.Provisions table) (step : StoreStep) :
    (s.perform step).database.Provisions table := by
  by_cases hstep : ∃ other, step = .createTable other
  · obtain ⟨other, rfl⟩ := hstep
    exact htable.createPrimitiveTable other
  · have hstep := not_exists.1 hstep
    exact htable.of_names (h.names_perform hstep) (h.indexes_perform hstep)

theorem provisions_after_append {steps : List StoreStep} {table : String}
    (h : (after steps).database.Provisions table) (later : List StoreStep) :
    (after (steps ++ later)).database.Provisions table :=
  after_append_induction (P := fun s => s.database.Provisions table) h
    (fun hholds htable => hholds.provisions_perform htable) later

end Session

/-- Provisioning leaves the tables that there are as they are. If it fails, nothing at all has
changed, except where the table itself can be made and only its index cannot: then there is a new
empty table. If it succeeds, it does so again under every spelling of the name, at once or after any
other steps, and changes nothing. -/
theorem Store.createPrimitiveTable_again (steps : List StoreStep) (table : String) :
    let db := (Session.after steps).database
    let result := (createPrimitiveTable table).run db
    db.tables <+: result.2.tables ∧
      (db.OnlyIndexFails table → result = (.error (.backingStore none),
        { db with tables := db.tables ++ [primitiveTable table []] })) ∧
      (¬ db.OnlyIndexFails table → result.1 ≠ .ok () → result.2 = db) ∧
      (result.1 = .ok () → ∀ other, sameName table other = true → ∀ later,
        let db' := (Session.after (steps ++ .createTable table :: later)).database
        (createPrimitiveTable other).run db' = (.ok (), db')) := by
  intro db result
  refine ⟨?_, run_createPrimitiveTable_of_onlyIndexFails, fun hall herror => ?_,
    fun hok other hother later => ?_⟩
  · rcases tables_createPrimitiveTable db table with htables | ⟨-, htables⟩
    · exact htables ▸ List.prefix_rfl
    · exact htables ▸ List.prefix_append db.tables _
  · rcases createPrimitiveTable_outcomes db table with hfails | ⟨-, hsame⟩ | ⟨hok, -⟩
    · exact absurd hfails hall
    · exact hsame
    · exact absurd hok herror
  · have hcreated : (Session.after (steps ++ [.createTable table])).database.Provisions table := by
      rw [Session.after_concat]
      rcases createPrimitiveTable_outcomes db table with hfails | ⟨herror, -⟩ | ⟨-, hprovisions⟩
      · have herror := congrArg Prod.fst (run_createPrimitiveTable_of_onlyIndexFails hfails)
        cases hok.symm.trans herror
      · exact absurd hok herror
      · exact hprovisions
    have hlater := Session.provisions_after_append hcreated later
    rw [List.append_assoc] at hlater
    exact run_createPrimitiveTable_of_provisions (hlater.congr hother)

/-- The table of bread is provisioned again in capitals, when there is a row in it. Of two other
names one is refused, and the other one is refused to the index only. -/
theorem Store.createPrimitiveTable_again_bread :
    let steps := [StoreStep.createTable "wine"]
    let db := (Session.after steps).database
    let later : List StoreStep :=
      [.registerPrimitive Clock.start.now "bread" (.ofList [("table_name", "bread")]),
        .record "bread" ⟨⟨2024, 3, 6, by decide⟩, 90⟩ Clock.start.now, .reopen]
    let db' := (Session.after (steps ++ .createTable "bread" :: later)).database
    ((createPrimitiveTable "bread").run db).1 = .ok () ∧
      (createPrimitiveTable "BREAD").run db' = (.ok (), db') ∧
      ¬ db.OnlyIndexFails "sqlite_bread" ∧
      ((createPrimitiveTable "sqlite_bread").run db).1 = .error (.backingStore none) ∧
      ((createPrimitiveTable "sqlite_bread").run db).2 = db ∧
      db.OnlyIndexFails "sqlite" ∧
      ((createPrimitiveTable "sqlite").run db).1 = .error (.backingStore none) := by
  intro steps db later db'
  have hok : ((createPrimitiveTable "bread").run db).1 = .ok () := by decide
  obtain ⟨hall, herror⟩ : ¬ db.OnlyIndexFails "sqlite_bread" ∧
      ((createPrimitiveTable "sqlite_bread").run db).1 = .error (.backingStore none) := by
    decide
  have hfails : db.OnlyIndexFails "sqlite" := by decide
  obtain ⟨-, -, -, hagain⟩ := Store.createPrimitiveTable_again steps "bread"
  obtain ⟨-, -, hsame, -⟩ := Store.createPrimitiveTable_again steps "sqlite_bread"
  obtain ⟨-, hleft, -, -⟩ := Store.createPrimitiveTable_again steps "sqlite"
  exact ⟨hok, hagain hok "BREAD" (by decide) later, hall, herror,
    hsame hall (herror ▸ nofun), hfails, congrArg Prod.fst (hleft hfails)⟩

/-- A table has the name of the index, and so provisioning fails. The table of rents is there all
the same, and a series can be registered on it. -/
theorem Store.createPrimitiveTable_leaves_table :
    let db := (Session.after [.createTable "rent_date_idx"]).database
    let result := (createPrimitiveTable "rent").run db
    result.1 = .error (.backingStore none) ∧ db.table? "rent" = none ∧
      result.2.tables = db.tables ++ [primitiveTable "rent" []] ∧
      ((registerPrimitive Clock.start.now "rent" (.ofList [("table_name", "rent")])).run
        result.2).1 = .ok ⟨"rent", .primitive⟩ := by
  decide

end TimeSeries
