import TimeSeries.Proofs.Indexes
import TimeSeries.Proofs.Recording
import TimeSeries.Proofs.Refinement

/-!
From a provisioned table to the first answer. A table that is provisioned can be registered on by
its name alone unless introspection hides it; what is then recorded later than all else for its day
is the value of the day. Tables are hidden by the start of their names, of which one character may
be any other, so that some names can be provisioned but never registered on.
-/
namespace TimeSeries

open Text (sameName)
open Store Database.Layout

/-! ## Registering by the name of a table -/

theorem Database.isHidden_congr {m n : String} (h : sameName m n = true) :
    isHidden m = isHidden n := by
  have hlower : Text.lower m = Text.lower n := beq_iff_eq.1 h
  have hlength : m.length = n.length := by
    have hl := congrArg (fun s : String => s.toList.length) hlower
    simpa [Text.lower, String.length_toList] using hl
  rw [isHidden, isHidden, hlower, hlength]

theorem Database.mem_schemas {db : Database} {schema : TableSchema} :
    schema ∈ db.schemas ↔ ∃ t ∈ db.tables, isHidden t.name = false ∧ t.schema = schema := by
  simp [schemas, and_assoc]

/-- Introspection finds a provisioned table by its name, unless it hides it. -/
theorem Database.Layout.find?_schemas {db : Database} {registrations : List Registration}
    {names : List String} {rows : String → List Row} (h : db.Layout registrations names rows)
    {n table : String} (hn : n ∈ names) (hname : sameName n table = true) :
    TableSchema.find? db.schemas table =
      if isHidden table then none else some (primitiveTable n []).schema := by
  cases hfind : TableSchema.find? db.schemas table with
  | none =>
    have hnone := List.find?_eq_none.1 hfind
    rw [if_pos]
    by_contra hshown
    have hshown : isHidden n = false := (isHidden_congr hname).trans (Bool.eq_false_iff.2 hshown)
    exact hnone _ (mem_schemas.2 ⟨_, h.mem_primitive hn, hshown, rfl⟩) hname
  | some schema =>
    have hsame := List.find?_some (p := fun t : TableSchema => sameName t.name table) hfind
    obtain ⟨t, ht, hshown, rfl⟩ := mem_schemas.1 (List.mem_of_find?_eq_some hfind)
    have hsame : sameName t.name table = true := hsame
    have htn : sameName t.name n = true :=
      Text.sameName_trans hsame ((Text.sameName_comm table n).trans hname)
    rw [isHidden_congr hsame] at hshown
    rw [hshown, h.table_unique ht (h.mem_primitive hn) htn]
    rfl

/-- The metadata that give the name of a table alone. -/
def Metadata.named (table : String) : Metadata := .ofList [("table_name", table)]

theorem Metadata.find?_named (table key : String) :
    SortedMap.find? (named table) key = if key = "table_name" then some table else none := by
  show (SortedMap.empty.insert "table_name" table).find? key = _
  split
  · next h => rw [h, SortedMap.find?_insert_self]
  · next h => exact SortedMap.find?_insert_of_ne _ h _

theorem Binding.ofMetadata_named (table : String) (tables : List TableSchema) :
    ofMetadata (.named table) tables =
      ((standard table).validate tables).map fun _ => standard table := by
  have hcolumns : Session.NamesNoColumn (.named table) := by
    intro key hkey
    rw [Metadata.find?_named, if_neg]
    rintro rfl
    revert hkey
    decide
  rw [ofMetadata, Metadata.find?_named, if_pos rfl]
  show (do
    (asked (.named table) table).validate tables
    return asked (.named table) table) = _
  rw [Session.asked_of_namesNoColumn hcolumns]
  cases (standard table).validate tables <;> rfl

/-- With the name of a table alone, a series is bound to it by the standard names of its columns,
unless the table is hidden. -/
theorem Database.Layout.ofMetadata_named {db : Database} {registrations : List Registration}
    {names : List String} {rows : String → List Row} (h : db.Layout registrations names rows)
    {n table : String} (hn : n ∈ names) (hsame : sameName n table = true)
    (hname : ensureIdentifier table = .ok ()) : Binding.ofMetadata (.named table) db.schemas =
      if isHidden table then .error (.tableNotFound table) else .ok (.standard table) := by
  have hnames : (Binding.standard table).names.forM ensureIdentifier = .ok () := by
    show (ensureIdentifier table >>= fun _ =>
      ["date_value", "value", "created_at"].forM ensureIdentifier) = .ok ()
    rw [hname]
    rfl
  rw [Binding.ofMetadata_named, Binding.validate, hnames, ok_bind, Binding.standard,
    h.find?_schemas hn hsame]
  cases isHidden table with
  | true => rfl
  | false =>
    -- The columns do not depend on the name of the table.
    have hcheck : (do
        Binding.checkColumn (primitiveTable n []).schema "date" "date_value" .text
        Binding.checkColumn (primitiveTable n []).schema "value" "value" .integer
        Binding.checkColumn (primitiveTable n []).schema "created_at" "created_at" .text) =
          .ok () :=
      (by decide : (do
        Binding.checkColumn (primitiveTable "" []).schema "date" "date_value" .text
        Binding.checkColumn (primitiveTable "" []).schema "value" "value" .integer
        Binding.checkColumn (primitiveTable "" []).schema "created_at" "created_at" .text) =
          .ok ())
    show (do
      Binding.checkColumn (primitiveTable n []).schema "date" "date_value" .text
      Binding.checkColumn (primitiveTable n []).schema "value" "value" .integer
      Binding.checkColumn (primitiveTable n []).schema "created_at" "created_at" .text).map _ = _
    rw [hcheck]
    rfl

/-! ## The last recording for a day -/

/-- An entry that no other one stands before or beside is the first. -/
theorem Entry.first?_eq_some {before : Entry → Entry → Bool}
    (htrans : ∀ a b c, before a b = true → before b c = true → before a c = true)
    (htotal : ∀ a b, (before a b || before b a) = true) {l : List Entry} {e : Entry} (he : e ∈ l)
    (hfirst : ∀ e' ∈ l, before e' e = true → e' = e) : first? before l = some e := by
  cases h : first? before l with
  | none =>
    rw [first?_eq_none_iff.1 h] at he
    cases he
  | some best =>
    obtain ⟨hmem, hall⟩ := first?_spec htrans htotal h
    rw [hfirst best hmem (hall e he)]

/-- The row of a day is its value. -/
theorem Primitive.outcome_value_of_exact {source : Source} {binding : Binding} {row : Recorded}
    (h : source binding (.exact row.date) = .ok [row]) :
    (value source binding (.on row.date)).outcome = .ok [row.toObservation] := by
  have hlatest : latestPerDate [row] = [row.toObservation] := rfl
  rw [outcome_value_of_exact_found h, hlatest, backfill_of_date rfl]
  rfl

theorem Entry.isOn_iff_of_binary {c : Columns} (h : c.dates.collation = .binary) {day : Date}
    {e : Entry} : isOn c day e = true ↔ e.date = .text day.text := by
  rw [isOn, Column.same, Column.key_of_binary h, Column.key_of_binary h]
  constructor
  · intro hsame
    cases hdate : e.date with
    | text s =>
      rw [hdate] at hsame
      rw [Cell.eq_of_same_text hsame]
    | null | integer _ | real _ => simp [hdate, Cell.same, Cell.le] at hsame
  · intro hdate
    simp [hdate, Cell.same, Cell.le]

/-- The standard names find the columns in their places. -/
theorem Binding.entry_standard (table n : String) (rows : List Row) (row : Row) :
    ((Binding.standard table).view n rows).entry row =
      ⟨Table.cell row 0, Table.cell row 1, Table.cell row 2⟩ := by
  have hdate : textPosition (Binding.standard table).dateColumn = 0 :=
    textPosition_of_date (Text.sameName_self _)
  have hcreated : textPosition (Binding.standard table).createdAtColumn = 2 :=
    textPosition_of_created (Text.sameName_self _)
  rw [View.entry, Binding.view, hdate, hcreated]

/-- Of the rows of a day the one with the greatest stamp is found. -/
theorem Session.lookup?_exact_of_newest [Scan] {db : Database} {n table : String} {rows : List Row}
    {p : Posting} (htable : db.table? table = some (primitiveTable n (rows ++ [p.row])))
    (hb : p.binding = .standard table)
    (hvalid : p.binding.validate [(primitiveTable n []).schema] = .ok ())
    (hyears : p.observation.date.IsFourDigit)
    (hnewest : ∀ row ∈ rows, Table.cell row 0 = .text p.observation.date.text →
      Cell.le (.text p.moment.stamp) (Table.cell row 2) = false) :
    db.lookup? (.standard table) (.exact p.observation.date) = some [p.recorded] := by
  have hbound : (Binding.standard table).validate [(primitiveTable n []).schema] = .ok () := by
    rwa [hb] at hvalid
  have hv := Database.view?_primitive (b := .standard table) htable hbound
  have hdiffer : sameName p.binding.dateColumn p.binding.createdAtColumn = false := by
    rw [hb]
    exact (by decide : sameName "date_value" "created_at" = false)
  have hentry := (Posting.roles hvalid).entry_eq hdiffer n (rows ++ [p.row])
  rw [hb] at hentry
  obtain ⟨entries, hentries, hselect⟩ :=
    Database.exists_select_of_view? hv (.exact p.observation.date)
  generalize hc : ((Binding.standard table).view n (rows ++ [p.row])).toColumns = c at hselect
  have hdates : c.dates.collation = .binary := hc ▸ rfl
  have hmoments : c.moments.collation = .binary := hc ▸ rfl
  have hfirst : Entry.first? (Entry.newest c)
      (entries.filter (Entry.isOn c p.observation.date)) = some (Entry.ofRecorded p.recorded) := by
    apply Entry.first?_eq_some (Entry.newest_trans c) (Entry.newest_total c)
    · rw [List.mem_filter, hentries.mem_iff, List.mem_map]
      exact ⟨⟨p.row, List.mem_append_right _ List.mem_cons_self, hentry⟩,
        (Entry.isOn_iff_of_binary hdates).2 rfl⟩
    · intro e he hbefore
      obtain ⟨he, hdate⟩ := List.mem_filter.1 he
      obtain ⟨row, hmem, rfl⟩ := List.mem_map.1 (hentries.mem_iff.1 he)
      rcases List.mem_append.1 hmem with hmem | hmem
      · rw [Binding.entry_standard] at hdate hbefore ⊢
        have hless := hnewest row hmem ((Entry.isOn_iff_of_binary hdates).1 hdate)
        rw [Entry.newest, Column.le, Column.key_of_binary hmoments,
          Column.key_of_binary hmoments] at hbefore
        exact absurd (hless.symm.trans hbefore) (by decide)
      · rw [List.mem_singleton.1 hmem]
        exact hentry
  rw [hselect, Entry.select, hfirst]
  simp [Entry.recorded?_ofRecorded (r := p.recorded) hyears]

/-- The posting has the day in the column where the binding has its days. -/
def Posting.IsFor (p : Posting) (b : Binding) (day : Date) : Prop :=
  sameName b.table p.binding.table = true ∧ sameName b.dateColumn p.binding.dateColumn = true ∧
    p.observation.date = day

namespace Session

variable {s : Session} {registrations : List Registration} {names : List String}

/-- Whatever stands in a row of a day for its stamp, it is smaller than the stamp of a moment that
comes after all postings for the day. -/
theorem Holds.le_stamp_eq_false (h : s.Holds registrations names) {n table : String}
    (hsame : sameName n table = true) {day : Date} {moment : Instant} (hday : day.IsFourDigit)
    (hmoment : moment.date.IsFourDigit)
    (hlast : ∀ p ∈ s.postings, p.IsFor (.standard table) day → p.moment.Precedes moment) {row : Row}
    (hrow : row ∈ s.rows n) (hdate : Table.cell row 0 = .text day.text) :
    Cell.le (.text moment.stamp) (Table.cell row 2) = false := by
  obtain ⟨p, hp, rfl⟩ := List.mem_map.1 hrow
  obtain ⟨hmem, hin⟩ := List.mem_filter.1 hp
  obtain ⟨id, hid⟩ := h.posted p hmem
  obtain ⟨m, -, hvalid⟩ := h.bound id p.binding hid
  cases Posting.roles hvalid with
  | standard hdateColumn _ hcells =>
    rw [hcells] at hdate ⊢
    have htext : day.text = p.observation.date.text := (Cell.text.inj hdate).symm
    have htable : sameName table p.binding.table = true := (Text.sameName_congr hsame _).trans hin
    have hprecedes := hlast p hmem
      ⟨htable, hdateColumn, ((Date.text_eq_text_iff hday).1 htext).symm⟩
    have hlt := Instant.stamp_lt_stamp_of_precedes hmoment hprecedes
    show decide (moment.stamp ≤ p.moment.stamp) = false
    rw [decide_eq_false_iff_not, String.not_le]
    exact hlt
  | exchanged _ _ hcells =>
    rw [hcells] at hdate
    exact absurd (Cell.text.inj hdate) (Instant.stamp_ne_text hday)
  | sharedDate _ _ hcells =>
    rw [hcells]
    rfl
  | sharedCreated _ _ hcells =>
    rw [hcells] at hdate
    cases hdate

/-- What is recorded after all else for its day is the value of the day. -/
theorem Holds.call_record [Scan] (h : s.Holds registrations names) {id : SeriesId} {table : String}
    (hid : s.registry.find? id = some (.primitive (.standard table))) {o : Observation}
    {moment : Instant} (hdate : o.date.IsFourDigit) (hmoment : moment.date.IsFourDigit)
    (hlast : ∀ p ∈ s.postings, p.IsFor (.standard table) o.date → p.moment.Precedes moment) :
    ((Store.record id o moment).run s.database).1 = .ok () ∧
      Store.call ((Store.record id o moment).run s.database).2 id .value (.on o.date) =
        .ok [o] := by
  have hok : ((Store.record id o moment).run s.database).1 = .ok () :=
    (h.outcome_record hid o moment).trans
      (if_neg (by decide : ¬ sameName "date_value" "created_at"))
  refine ⟨hok, ?_⟩
  obtain ⟨n, hn, hvalid⟩ := h.bound id _ hid
  have hsame := sameName_of_validate hvalid
  have hsame : sameName n table = true := hsame
  let p : Posting := ⟨.standard table, o, moment⟩
  let s' := s.perform (.record id o moment)
  have h' : s'.Holds registrations names := h.record id o moment
  have hdatabase : s'.database = ((Store.record id o moment).run s.database).2 :=
    database_post s id o moment _
  have hpostings : s'.postings = s.postings ++ [p] := by
    obtain ⟨b, hb, hpostings⟩ := h.postings_of_record hok
    rw [hid] at hb
    cases hb
    exact hpostings
  have hrows : s'.rows n = s.rows n ++ [p.row] := by
    have hin : p.isIn n = true := hsame
    rw [rows, hpostings, List.filter_append, List.map_append, List.filter_singleton, hin]
    rfl
  have htable := h'.layout.table?_primitive hn hsame
  rw [hrows, hdatabase] at htable
  have hlookup : ((Store.record id o moment).run s.database).2.lookup? (.standard table)
      (.exact p.recorded.date) = some [p.recorded] :=
    lookup?_exact_of_newest (p := p) htable rfl hvalid hdate fun row hrow hcell =>
      h.le_stamp_eq_false hsame hdate hmoment hlast hrow hcell
  have hdefinition : definition s'.database id = .ok (some (.primitive (.standard table))) := by
    rw [h'.definition_eq, h.find?_perform hid]
  rw [hdatabase] at hdefinition
  rw [Store.call_of_primitive hdefinition]
  have hsource : Database.source ((Store.record id o moment).run s.database).2 (.standard table)
      (.exact p.recorded.date) = .ok [p.recorded] := by
    rw [Database.source, hlookup]
  exact Primitive.outcome_value_of_exact hsource

end Session

/-- After a table is provisioned, a new series can be registered on it by its name alone exactly if
the table is not hidden. Then, whatever else is done, each recording that comes later than all
before it for its day succeeds, and is the value of that day. -/
theorem Store.call_after_provisioning [Scan] {steps : List StoreStep} {table : String} {id : SeriesId}
    (hcreate : ((createPrimitiveTable table).run (Session.after steps).database).1 = .ok ())
    (hfree : definition (Session.after steps).database id = .ok none) (now : Instant) :
    let created := steps ++ [.createTable table]
    ((registerPrimitive now id (.named table)).run (Session.after created).database).1 =
        (if Database.isHidden table then .error (.tableNotFound table) else .ok ⟨id, .primitive⟩) ∧
      (Database.isHidden table = false → ∀ later,
        let s := Session.after (created ++ .registerPrimitive now id (.named table) :: later)
        ∀ (o : Observation) (moment : Instant), o.date.IsFourDigit → moment.date.IsFourDigit →
          (∀ p ∈ s.postings, p.IsFor (.standard table) o.date → p.moment.Precedes moment) →
          ((record id o moment).run s.database).1 = .ok () ∧
            call ((record id o moment).run s.database).2 id .value (.on o.date) = .ok [o]) := by
  intro created
  obtain ⟨registrations, names, h⟩ := Session.exists_holds_after steps
  obtain ⟨names', hcreated⟩ := h.createTable table
  obtain ⟨n, hn, hsame⟩ := exists_name_of_createPrimitiveTable hcreated.layout
    (Session.dateIndexed_after steps) hcreate
  have h' : (Session.after created).Holds registrations names' := by
    rw [Session.after_concat]
    exact hcreated
  have hname : ensureIdentifier table = .ok () := by
    rcases createPrimitiveTable_cases (Session.after steps).database table with
      ⟨hnot, -⟩ | ⟨hname, -⟩
    · exact absurd hcreate hnot
    · exact hname
  have hnew : registered? registrations id = none := by
    rw [h.layout.definition_eq] at hfree
    exact Except.ok.inj hfree
  have hbinding := h'.layout.ofMetadata_named hn hsame hname
  have hregister :
      ((registerPrimitive now id (.named table)).run (Session.after created).database).1 =
        if Database.isHidden table then .error (.tableNotFound table) else .ok ⟨id, .primitive⟩ := by
    rw [run_registerPrimitive, hbinding]
    cases Database.isHidden table with
    | true => rfl
    | false =>
      obtain ⟨db', hrun, -⟩ := run_insertDefinition_of_new h'.layout now
        (.primitive (.standard table)) hnew
      exact congrArg Prod.fst hrun
  refine ⟨hregister, fun hshown later o moment hdate hmoment hlast => ?_⟩
  rw [hshown] at hregister hbinding
  obtain ⟨b, hb, hlater⟩ := Session.exists_binding_after hregister
  rw [hbinding] at hb
  cases hb
  obtain ⟨registrations', names'', hs⟩ := Session.exists_holds_after
    (created ++ .registerPrimitive now id (.named table) :: later)
  exact hs.call_record (hlater later) hdate hmoment hlast

/-- Flour is recorded twice for a day. -/
theorem Store.call_after_provisioning_flour :
    let steps := [StoreStep.createTable "food"]
    let created := steps ++ [.createTable "flour"]
    let later : List StoreStep :=
      [.record "flour" ⟨⟨2024, 3, 6, by decide⟩, 90⟩ (noon 6 (by decide))]
    let register := StoreStep.registerPrimitive (noon 6 (by decide)) "flour" (.named "flour")
    let s := Session.after (created ++ register :: later)
    let o : Observation := ⟨⟨2024, 3, 6, by decide⟩, 95⟩
    let moment := noon 7 (by decide)
    ((createPrimitiveTable "flour").run (Session.after steps).database).1 = .ok () ∧
      definition (Session.after steps).database "flour" = .ok none ∧
      ((registerPrimitive (noon 6 (by decide)) "flour" (.named "flour")).run
        (Session.after created).database).1 = .ok ⟨"flour", .primitive⟩ ∧
      (∀ p ∈ s.postings, p.IsFor (.standard "flour") o.date → p.moment.Precedes moment) ∧
      ((record "flour" o moment).run s.database).1 = .ok () ∧
      call ((record "flour" o moment).run s.database).2 "flour" .value (.on o.date) = .ok [o] := by
  intro steps created later register s o moment
  have hstart : ((createPrimitiveTable "flour").run (Session.after steps).database).1 = .ok () ∧
      definition (Session.after steps).database "flour" = .ok none := by decide +kernel
  have hshown : Database.isHidden "flour" = false := by decide
  have hlast : ∀ p ∈ s.postings, p.moment.Precedes moment := by decide +kernel
  obtain ⟨hregister, hrecord⟩ :=
    Store.call_after_provisioning hstart.1 hstart.2 (noon 6 (by decide))
  rw [hshown] at hregister
  have hlast : ∀ p ∈ s.postings, p.IsFor (.standard "flour") o.date → p.moment.Precedes moment :=
    fun p hp _ => hlast p hp
  exact ⟨hstart.1, hstart.2, hregister, hlast,
    hrecord hshown later o moment (by decide) (by decide) hlast⟩

/-- A name that is not reserved, and still hides its table. -/
theorem Store.registerPrimitive_hidden :
    let created := Session.after [.createTable "sqlitedata"]
    ((createPrimitiveTable "sqlitedata").run Session.start.database).1 = .ok () ∧
      definition Session.start.database "rent" = .ok none ∧
      ((registerPrimitive Clock.start.now "rent" (.named "sqlitedata")).run created.database).1 =
        .error (.tableNotFound "sqlitedata") := by
  decide +kernel

end TimeSeries
