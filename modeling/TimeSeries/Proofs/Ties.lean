import Mathlib.Data.List.Perm.Basic
import TimeSeries.Proofs.Indexes
import TimeSeries.Proofs.Refinement

/-!
Rows that share both the date and the moment of recording. A day that is looked up alone finds the
first one of the rows created last, as they come up; the range of that day finds them all, and the
last one counts. An index on both columns is followed backwards for the day alone, so that the two
agree; without one they agree if the first and the last of those rows have the same value.
-/
namespace TimeSeries

open Recorded (chronology)

/-! ## The rows of a day -/

/-- The samples of a day that were created last, in the order of the rows. -/
def Recorded.lastOn (k : Chronology Recorded) (rows : List Recorded) (day : Date) :
    List Recorded := Greatest.all k.notAfter (rows.filter (·.date == day))

theorem Recorded.of_mem_lastOn {k : Chronology Recorded} {rows : List Recorded} {day : Date}
    {r : Recorded} (h : r ∈ lastOn k rows day) : r ∈ rows ∧ r.date = day := by
  simpa using (Greatest.mem_all.1 h).1

/-- Whether there is one depends neither on the order of the rows nor on that of the moments. -/
theorem Recorded.lastOn_eq_nil_iff {k k' : Chronology Recorded} {rows rows' : List Recorded}
    (hp : rows.Perm rows') (day : Date) : lastOn k rows day = [] ↔ lastOn k' rows' day = [] := by
  rw [lastOn, lastOn, Greatest.all_eq_nil_iff k.trans k.total,
    Greatest.all_eq_nil_iff k'.trans k'.total, ← List.length_eq_zero_iff,
    ← List.length_eq_zero_iff, (hp.filter _).length_eq]

namespace Entry

/-- The first of a selection is the last one of the greatest when the entries come up backwards. -/
theorem first?_eq_last?_reverse (before : Entry → Entry → Bool) (l : List Entry) :
    first? before l = Greatest.last? (fun a b => before b a) l.reverse := by
  induction l with
  | nil => rfl
  | cons e l ih =>
    rw [List.reverse_cons, Greatest.last?_concat, ← ih, first?]
    cases first? before l <;> rfl

variable (c : Columns) {rows : List Recorded}

/-- Of several samples that were created last the first one is selected. -/
theorem first?_newest (rows : List Recorded) : first? (newest c) (rows.map ofRecorded) =
    (Greatest.all (Recorded.collated c.moments.collation).notAfter rows).head?.map ofRecorded := by
  let k := Recorded.collated c.moments.collation
  have hmap : Greatest.last? (fun a b => newest c b a) (rows.reverse.map ofRecorded) =
      (Greatest.last? k.notAfter rows.reverse).map ofRecorded :=
    Greatest.last?_map (fun _ _ => rfl) _
  rw [first?_eq_last?_reverse, ← List.map_reverse, hmap,
    Greatest.last?_eq_getLast?_all k.trans k.total, Greatest.all_reverse, List.getLast?_reverse]

/-- On one day the order of a range is that of the creation. -/
theorem sort_ascending_of_day {day : Date} (hday : ∀ r ∈ rows, r.date = day) :
    Sorted.sort (ascending c) (rows.map ofRecorded) =
      (Sorted.sort (fun a b => (Recorded.collated c.moments.collation).notAfter b a) rows).map
        ofRecorded := by
  apply Sorted.sort_map
  intro a ha b hb
  have hdate : (ofRecorded a).date = (ofRecorded b).date := by
    rw [ofRecorded, ofRecorded, hday a ha, hday b hb]
  have hrefl : c.dates.le (ofRecorded b).date (ofRecorded b).date = true := by
    simpa using c.dates.le_total (ofRecorded b).date (ofRecorded b).date
  rw [ascending, hdate, Column.lt, hrefl, Bool.not_true, Bool.false_or, Bool.true_and]
  rfl

/-- The range of one day is the day. -/
theorem filter_range_of_day (rows : List Recorded) (day : Date) :
    (rows.map ofRecorded).filter (fun e => isFrom c day e && isUpTo c day e) =
      (rows.map ofRecorded).filter (isOn c day) := by
  apply List.filter_congr
  intro e he
  obtain ⟨r, -, rfl⟩ := List.mem_map.1 he
  have hnull (s : String) : (Cell.text s != .null) = true := rfl
  simp [isFrom, isUpTo, isOn, ofRecorded, Column.same, Column.le, Column.key, Cell.same, hnull,
    Bool.and_comm]

section Dates
variable (hyears : ∀ r ∈ rows, r.date.IsFourDigit) (day : Date)
include hyears

theorem mapM_recorded? : (rows.map ofRecorded).mapM recorded? = some rows := by
  rw [mapM_eq_some_iff, List.forall₂_map_left_iff, List.forall₂_same]
  intro r hr
  exact recorded?_ofRecorded (hyears r hr)

theorem filter_isOn : (rows.map ofRecorded).filter (isOn c day) =
    (rows.filter (·.date == day)).map ofRecorded := by
  rw [List.filter_map]
  congr 1
  apply List.filter_congr
  intro r hr
  exact isOn_ofRecorded (hyears r hr) c day

/-- A day that is looked up alone finds the first of the samples that were created last. -/
theorem select_exact : (select c (.exact day) (rows.map ofRecorded)).mapM recorded? =
    some (Recorded.lastOn (Recorded.collated c.moments.collation) rows day).head?.toList := by
  rw [select, filter_isOn c hyears, first?_newest, ← Recorded.lastOn]
  cases hfirst : (Recorded.lastOn (Recorded.collated c.moments.collation) rows day).head? with
  | none => rfl
  | some r =>
    have hr := hyears r (Recorded.of_mem_lastOn (List.mem_of_mem_head? hfirst)).1
    simp [recorded?_ofRecorded hr]

/-- The range of a day finds all of its samples, the latest created first. -/
theorem select_range_of_day :
    (select c (.range day day) (rows.map ofRecorded)).mapM recorded? =
      some (Sorted.sort (fun a b => (Recorded.collated c.moments.collation).notAfter b a)
        (rows.filter (·.date == day))) := by
  have hday : ∀ r ∈ rows.filter (·.date == day), r.date = day := by simp
  rw [select, filter_range_of_day, filter_isOn c hyears, sort_ascending_of_day c hday]
  apply mapM_recorded?
  intro r hr
  exact hyears r (List.mem_filter.1 ((Sorted.mem_sort _ _ _).1 hr)).1

end Dates
end Entry

namespace Primitive

/-- The rows of one day leave the last one of those that were created last. -/
theorem latestPerDate_of_day {rows : List Recorded} {day : Date} (hday : ∀ r ∈ rows, r.date = day) :
    latestPerDate rows =
      (Greatest.all chronology.notAfter rows).getLast?.toList.map (·.toObservation) := by
  have hcovers : rows.filter (chronology.covers (.exact day)) = rows := by
    rw [List.filter_eq_self]
    intro r hr
    simpa using hday r hr
  have hpick : chronology.pick? rows (.exact day) =
      (Greatest.all chronology.notAfter rows).getLast? := by
    rw [Chronology.pick?, hcovers,
      ← Greatest.last?_eq_getLast?_all chronology.trans chronology.total]
    apply Greatest.last?_congr
    intro a ha b hb
    have hdate : a.date = b.date := (hday a ha).trans (hday b hb).symm
    simp [Chronology.order, Chronology.upTo, hdate, Std.lt_irrefl]
  apply Align.eq_of_ascending (latestPerDate_ascending rows)
  · cases (Greatest.all chronology.notAfter rows).getLast? <;> simp
  · intro o
    rw [mem_latestPerDate, ← hpick]
    constructor
    · rintro ⟨row, hrow, rfl⟩
      obtain rfl := hday row (Chronology.mem_of_pick? hrow).1
      simp [hrow]
    · intro ho
      obtain ⟨row, hrow, rfl⟩ := List.mem_map.1 ho
      rw [Option.mem_toList] at hrow
      refine ⟨row, ?_, rfl⟩
      rw [date_of_pick? hrow]
      exact hrow

theorem latestPerDate_toList (row? : Option Recorded) :
    latestPerDate row?.toList = row?.toList.map (·.toObservation) := by
  cases row? <;> rfl

end Primitive

/-- Texts that are equal stand equal in every collating sequence. -/
theorem Recorded.notAfter_collated_of_chronology {rows : List Recorded} (k : Collation) :
    ∀ a ∈ Greatest.all chronology.notAfter rows, ∀ b ∈ Greatest.all chronology.notAfter rows,
      (collated k).notAfter b a = true := by
  intro a ha b hb
  rw [Greatest.mem_all] at ha hb
  have hab := hb.2 a ha.1
  have hba := ha.2 b hb.1
  rw [notAfter_chronology, decide_eq_true_eq] at hab hba
  simp [String.le_antisymm hab hba]

/-! ## Tables -/

/-- Through an index on both the date and the moment. -/
def Access.isOnBoth : Access → Bool
  | byDate | byMoment => true
  | _ => false

/-- Such an index, and no other, is followed backwards for a day that is looked up alone. -/
def Scan.FollowsIndexes [Scan] : Prop :=
  ∀ (access : Access) (day : Date) (table : Table), Scan.rows access (.exact day) table =
    if access.isOnBoth then (Scan.rows access (.range day day) table).reverse
    else Scan.rows access (.range day day) table

theorem Access.followsIndexes : Scan.FollowsIndexes := by
  intro access day table
  cases access <;> rfl

namespace View

/-- The entries of a day whose moments are the greatest texts, in the order of the rows. -/
def lastCreated (v : View) (rows : List Row) (day : Date) : List Entry :=
  Greatest.all (fun a b => Cell.le a.createdAt b.createdAt)
    ((rows.map v.entry).filter (Entry.isOn v.toColumns day))

/-- Those whose moments come last in the collating sequence of their column. -/
def lastCollated (v : View) (rows : List Row) (day : Date) : List Entry :=
  Greatest.all (fun a b => v.moments.le a.createdAt b.createdAt)
    ((rows.map v.entry).filter (Entry.isOn v.toColumns day))

variable {v : View}

section Samples
variable {rows : List Row} {samples : List Recorded}
  (hsamples : rows.map v.entry = samples.map Entry.ofRecorded)
  (hyears : ∀ r ∈ samples, r.date.IsFourDigit) (day : Date)
include hsamples hyears

theorem lastCreated_eq :
    v.lastCreated rows day = (Recorded.lastOn chronology samples day).map Entry.ofRecorded := by
  rw [lastCreated, hsamples, Entry.filter_isOn _ hyears]
  exact Greatest.all_map (fun _ _ => rfl) _

theorem lastCollated_eq : v.lastCollated rows day =
    (Recorded.lastOn (Recorded.collated v.moments.collation) samples day).map
      Entry.ofRecorded := by
  rw [lastCollated, hsamples, Entry.filter_isOn _ hyears]
  exact Greatest.all_map (fun _ _ => rfl) _

end Samples

theorem lastCollated_of_binary (h : v.moments.collation = .binary) (rows : List Row) (day : Date) :
    v.lastCollated rows day = v.lastCreated rows day := by
  simp only [lastCollated, lastCreated, Column.le, Column.key_of_binary h]

theorem lastCreated_reverse (rows : List Row) (day : Date) :
    v.lastCreated rows.reverse day = (v.lastCreated rows day).reverse := by
  rw [lastCreated, List.map_reverse, List.filter_reverse, Greatest.all_reverse, lastCreated]

/-- An index on both is followed backwards, and so the last entry comes up first. -/
theorem head?_lastCollated [Scan] (h : v.moments.collation = .binary)
    (hfollows : Scan.FollowsIndexes) (access : Access) (day : Date) :
    (v.lastCollated (Scan.rows access (.exact day) v.table) day).head? =
      let last := v.lastCreated (Scan.rows access (.range day day) v.table) day
      if access.isOnBoth then last.getLast? else last.head? := by
  rw [lastCollated_of_binary h, hfollows]
  split
  · rw [lastCreated_reverse, List.head?_reverse]
  · rfl

end View

namespace Database

section Day
variable [Scan] {db : Database} {b : Binding} {v : View} {rows : List Recorded}

/-- The samples of a table as they come up for a lookup. -/
theorem exists_rows_map_entry {samples : List Recorded}
    (hsamples : v.table.rows.map v.entry = samples.map Entry.ofRecorded)
    (access : Access) (lookup : Lookup) : ∃ rows : List Recorded, rows.Perm samples ∧
      (Scan.rows access lookup v.table).map v.entry = rows.map Entry.ofRecorded := by
  have hperm := (Scan.rows_perm access lookup v.table).map v.entry
  rw [hsamples] at hperm
  obtain ⟨rows, hentries, hrows⟩ :=
    (congrFun₂ (List.eq_map_comp_perm Entry.ofRecorded) _ _).mpr hperm
  exact ⟨rows, hrows, hentries⟩

variable (hv : db.view? b = some v)
include hv

theorem source_eq_ok {lookup : Lookup} {found : List Recorded}
    (hrows : (Scan.rows (db.access b v.table) lookup v.table).map v.entry =
      rows.map Entry.ofRecorded)
    (h : (Entry.select v.toColumns lookup (rows.map Entry.ofRecorded)).mapM Entry.recorded? =
      some found) : db.source b lookup = .ok found := by
  have hlookup : db.lookup? b lookup = some found := by
    rw [lookup?, hv, ← h, ← hrows]
    rfl
  rw [source, hlookup]

variable {day : Date} (hyears : ∀ r ∈ rows, r.date.IsFourDigit)
include hyears

/-- A day alone finds the first of those created last in the collating sequence of the moments. -/
theorem source_exact (hrows : (Scan.rows (db.access b v.table) (.exact day) v.table).map v.entry =
    rows.map Entry.ofRecorded) : db.source b (.exact day) =
      .ok (Recorded.lastOn (Recorded.collated v.moments.collation) rows day).head?.toList :=
  source_eq_ok hv hrows (Entry.select_exact _ hyears day)

/-- Its range finds all its samples, and the last of those with the greatest texts is left. -/
theorem exists_source_range
    (hrows : (Scan.rows (db.access b v.table) (.range day day) v.table).map v.entry =
      rows.map Entry.ofRecorded) : ∃ found, db.source b (.range day day) = .ok found ∧
      Primitive.latestPerDate found =
        (Recorded.lastOn chronology rows day).getLast?.toList.map (·.toObservation) := by
  refine ⟨_, source_eq_ok hv hrows (Entry.select_range_of_day _ hyears day), ?_⟩
  rw [Primitive.latestPerDate_of_day,
    Greatest.all_sort (Recorded.notAfter_collated_of_chronology _), Recorded.lastOn]
  intro r hr
  simpa using (List.mem_filter.1 ((Sorted.mem_sort _ _ _).1 hr)).2

end Day

end Database

namespace Store

section Calls
variable [Scan] {db : Database} {id : SeriesId} {b : Binding} {v : View}
  (hdefinition : definition db id = .ok (some (.primitive b))) (hv : db.view? b = some v)
  {samples : List Recorded} (hsamples : v.table.rows.map v.entry = samples.map Entry.ofRecorded)
  (hyears : ∀ r ∈ samples, r.date.IsFourDigit) (day : Date)
include hdefinition hv hsamples hyears

/-- A day has the value of the first entry in the collating sequence, and as a range that of the last
entry by the texts. -/
theorem call_range_eq_call_on_iff_first :
    call db id .value ⟨.on day, some day⟩ = call db id .value (.on day) ↔
      (v.lastCollated (Scan.rows (db.access b v.table) (.exact day) v.table) day).head?.map
          (·.value) =
        (v.lastCreated (Scan.rows (db.access b v.table) (.range day day) v.table) day).getLast?.map
          (·.value) := by
  let access := db.access b v.table
  obtain ⟨rows, hrows, hentries⟩ :=
    Database.exists_rows_map_entry hsamples access (.exact day)
  obtain ⟨rows', hrows', hentries'⟩ :=
    Database.exists_rows_map_entry hsamples access (.range day day)
  have hyears' : ∀ r ∈ rows', r.date.IsFourDigit := fun r hr => hyears r (hrows'.mem_iff.1 hr)
  have hyears : ∀ r ∈ rows, r.date.IsFourDigit := fun r hr => hyears r (hrows.mem_iff.1 hr)
  let k := Recorded.collated v.moments.collation
  have hempty : Recorded.lastOn k rows day = [] ↔ Recorded.lastOn chronology rows' day = [] :=
    Recorded.lastOn_eq_nil_iff (hrows.trans hrows'.symm) day
  obtain ⟨found, hrange, hfound⟩ := Database.exists_source_range hv hyears' hentries'
  have hanswer {row : Recorded} (hrow : row.date = day) :
      (Primitive.backfill db.source b day ((some row).toList.map (·.toObservation))).outcome >>=
        Primitive.nonempty = .ok [row.toObservation] := by
    show (Primitive.backfill db.source b day [row.toObservation]).outcome >>= _ = _
    rw [Primitive.backfill_of_date hrow]
    rfl
  rw [call_of_primitive hdefinition, call_of_primitive hdefinition]
  show (Primitive.value db.source b _).outcome = (Primitive.value db.source b _).outcome ↔ _
  rw [Primitive.outcome_value_of_range_found hrange, hfound,
    Primitive.outcome_value_of_exact_found (Database.source_exact hv hyears hentries),
    Primitive.latestPerDate_toList, View.lastCollated_eq hentries hyears,
    View.lastCreated_eq hentries' hyears', List.head?_map, List.getLast?_map]
  cases hlast : (Recorded.lastOn chronology rows' day).getLast? with
  | none =>
    rw [hempty.2 (List.getLast?_eq_none_iff.1 hlast)]
    simp
  | some last =>
    obtain ⟨first, hfirst⟩ : ∃ first, (Recorded.lastOn k rows day).head? = some first := by
      rw [← Option.isSome_iff_exists, List.isSome_head?]
      intro hnil
      simp [hempty.1 hnil] at hlast
    have hlastDay := (Recorded.of_mem_lastOn (List.mem_of_getLast? hlast)).2
    have hfirstDay := (Recorded.of_mem_lastOn (List.mem_of_mem_head? hfirst)).2
    have hsame : last.toObservation = first.toObservation ↔ first.value = last.value := by
      show (⟨last.date, last.value⟩ : Observation) = ⟨first.date, first.value⟩ ↔ _
      rw [hlastDay, hfirstDay]
      simp [eq_comm]
    rw [hfirst, hanswer hlastDay, hanswer hfirstDay]
    simp [hsame, Entry.ofRecorded]

/-- A day has the same value alone and as a range exactly if the first of the entries that come last
in the collating sequence, as they come up for the day, and the last one of those with the greatest
texts, as they come up for the range, have one value. With moments that compare by their texts and
indexes that are followed, an index on both date and moment leads to the rows, or else the first and
the last of those that were created last have one value. -/
theorem call_range_eq_call_on_iff :
    let access := db.access b v.table
    let first := v.lastCollated (Scan.rows access (.exact day) v.table) day
    let last := v.lastCreated (Scan.rows access (.range day day) v.table) day
    (call db id .value ⟨.on day, some day⟩ = call db id .value (.on day) ↔
        first.head?.map (·.value) = last.getLast?.map (·.value)) ∧
      (v.moments.collation = .binary → Scan.FollowsIndexes →
        (call db id .value ⟨.on day, some day⟩ = call db id .value (.on day) ↔
          access.isOnBoth = true ∨ last.head?.map (·.value) = last.getLast?.map (·.value))) := by
  intro access first last
  have hiff := call_range_eq_call_on_iff_first hdefinition hv hsamples hyears day
  refine ⟨hiff, fun hbinary hfollows => ?_⟩
  rw [hiff, View.head?_lastCollated hbinary hfollows]
  show (if access.isOnBoth then last.getLast? else last.head?).map _ = last.getLast?.map _ ↔ _
  cases access.isOnBoth with
  | true => simp
  | false => simp

end Calls

/-- The columns of the ledger for rents. -/
def rents : Binding := ⟨"ledger", "day", "amount", "stamp"⟩

/-- A ledger without an index, a series on it, and values for the same day and moment. -/
def tiedLedger (values : List Value) : Option Database := do
  let db ← fresh.declareTable? "ledger" [("day", "TEXT"), ("amount", "INTEGER"), ("stamp", "TEXT")]
  let metadata : Metadata := .ofList [("table_name", "ledger"), ("date_column", "day"),
    ("value_column", "amount"), ("created_at_column", "stamp")]
  values.foldlM (fun db value => db.insertCells? "ledger"
    [.text "2024-01-01", .integer value, .text "2024-01-02T09"])
    ((registerPrimitive (noon 20 (by decide)) "rent" metadata).run db).2

theorem call_range_eq_call_on_iff_tied :
    let day : Date := ⟨2024, 1, 1, by decide⟩
    let samples : List Recorded := [5, 6, 5].map fun v => ⟨⟨day, v⟩, "2024-01-02T09"⟩
    ∃ db ∈ tiedLedger [5, 6, 5], ∃ v,
      definition db "rent" = .ok (some (.primitive rents)) ∧ db.view? rents = some v ∧
      v.table.rows.map v.entry = samples.map Entry.ofRecorded ∧
      (∀ r ∈ samples, r.date.IsFourDigit) ∧ v.moments.collation = .binary ∧ Scan.FollowsIndexes ∧
      call db "rent" .value ⟨.on day, some day⟩ = call db "rent" .value (.on day) := by
  intro day samples
  have hmade : (tiedLedger [5, 6, 5]).bind (fun db => (db.view? rents).map fun v =>
      (definition db "rent", v.table.rows.map v.entry, v.moments.collation,
        (v.lastCreated (Scan.rows (db.access rents v.table) (.range day day) v.table) day).map
          (·.value))) =
      some (.ok (some (.primitive rents)), samples.map Entry.ofRecorded, .binary,
        [.integer 5, .integer 6, .integer 5]) := by
    decide +kernel
  obtain ⟨db, hdb, hmade⟩ := Option.bind_eq_some_iff.1 hmade
  obtain ⟨v, hv, hmade⟩ := Option.map_eq_some_iff.1 hmade
  simp only [Prod.mk.injEq] at hmade
  obtain ⟨hdefinition, hsamples, hbinary, hlast⟩ := hmade
  have hyears : ∀ r ∈ samples, r.date.IsFourDigit := by decide
  have hiff := (call_range_eq_call_on_iff hdefinition hv hsamples hyears day).2 hbinary
    Access.followsIndexes
  refine ⟨db, hdb, v, hdefinition, hv, hsamples, hyears, hbinary, Access.followsIndexes,
    hiff.2 (.inr ?_)⟩
  rw [← List.head?_map, ← List.getLast?_map, hlast]
  rfl

/-- Without an index the day alone finds the first of two rows for one moment, its range the last. -/
theorem call_range_ne_call_on_tied :
    let day : Date := ⟨2024, 1, 1, by decide⟩
    ∃ db ∈ tiedLedger [5, 6], db.indexes = [] ∧
      definition db "rent" = .ok (some (.primitive rents)) ∧
      call db "rent" .value (.on day) = .ok [⟨day, 5⟩] ∧
      call db "rent" .value ⟨.on day, some day⟩ = .ok [⟨day, 6⟩] := by
  decide +kernel

end Store

/-! ## Provisioned tables -/

open Text (sameName)
open Store

/-- With the index of a provisioned table, and the date and the moment in the two columns of it. -/
theorem Database.DateIndexed.isOnBoth_access {db : Database} (h : db.DateIndexed) {i : Index}
    (hi : i ∈ db.indexes) {b : Binding} (htable : sameName i.table b.table = true)
    (hdate : Binding.IsTextual b.dateColumn) (hcreated : Binding.IsTextual b.createdAtColumn)
    (hdiffer : sameName b.dateColumn b.createdAtColumn = false) (t : Table) :
    (db.access b t).isOnBoth = true := by
  obtain ⟨found, hfound⟩ : ∃ found, db.indexes.find? (fun i => sameName i.table b.table) =
      some found := by
    rw [← Option.isSome_iff_exists, List.find?_isSome]
    exact ⟨i, hi, htable⟩
  obtain ⟨table, rfl, -⟩ := h found (List.mem_of_find?_eq_some hfound)
  rw [access, hfound]
  dsimp only [dateIndex]
  rcases hdate with hdate | hdate <;> rcases hcreated with hcreated | hcreated
  · rw [Text.sameName_congr hdate, hcreated] at hdiffer
    cases hdiffer
  · rw [if_pos hdate, if_pos hcreated]
    rfl
  · have hnot : sameName "date_value" b.dateColumn = false := by
      rw [Text.sameName_congr_right hdate]
      decide
    simp [hnot, hdate, hcreated, Access.isOnBoth]
  · rw [Text.sameName_congr hdate, hcreated] at hdiffer
    cases hdiffer

namespace Session

variable {s : Session} {registrations : List Registration} {names : List String}

/-- Indexes are never dropped. -/
theorem Holds.indexes_subset_perform (h : s.Holds registrations names) (step : StoreStep) :
    s.database.indexes ⊆ (s.perform step).database.indexes := by
  by_cases hstep : ∃ table, step = .createTable table
  · obtain ⟨table, rfl⟩ := hstep
    show _ ⊆ ((createPrimitiveTable table).run s.database).2.indexes
    rcases createPrimitiveTable_cases s.database table with
      ⟨-, hindexes⟩ | ⟨-, t, -, ⟨hindexes, -⟩ | ⟨hindexes, -⟩⟩
    · rw [hindexes]
      exact List.Subset.refl _
    · rw [hindexes]
      exact List.Subset.refl _
    · rw [hindexes]
      exact List.subset_append_left _ _
  · rw [h.indexes_perform (not_exists.1 hstep)]
    exact List.Subset.refl _

theorem indexes_subset_after (steps later : List StoreStep) :
    (after steps).database.indexes ⊆ (after (steps ++ later)).database.indexes :=
  after_append_induction (P := fun s => (after steps).database.indexes ⊆ s.database.indexes)
    (List.Subset.refl _)
    (fun h hsubset step => List.Subset.trans hsubset (h.indexes_subset_perform step)) later

/-- A table that has been provisioned has its index from then on. -/
theorem exists_index_after {steps : List StoreStep} {table : String}
    (hcreate : ((createPrimitiveTable table).run (after steps).database).1 = .ok ())
    (later : List StoreStep) :
    ∃ i ∈ (after (steps ++ .createTable table :: later)).database.indexes,
      sameName i.table table = true := by
  have hsubset := indexes_subset_after (steps ++ [.createTable table]) later
  rw [List.append_assoc, List.singleton_append, after_concat] at hsubset
  have hindex : ∃ i ∈ ((createPrimitiveTable table).run (after steps).database).2.indexes,
      sameName i.table table = true := by
    rcases createPrimitiveTable_cases (after steps).database table with
      ⟨hnot, -⟩ | ⟨-, t, -, ⟨hindexes, i, hi, hname⟩ | ⟨hindexes, -⟩⟩
    · exact absurd hcreate hnot
    · obtain ⟨other, rfl, -⟩ := dateIndexed_after steps i hi
      rw [hindexes]
      exact ⟨_, hi, (Text.sameName_append _ _ _).symm.trans hname⟩
    · rw [hindexes]
      exact ⟨_, List.mem_append_right _ List.mem_cons_self, Text.sameName_self _⟩
  obtain ⟨i, hi, hname⟩ := hindex
  exact ⟨i, hsubset hi, hname⟩

end Session

/-- In a table that has been provisioned a day has the same value alone and as a range, whatever is
recorded for one moment, if the series has its dates and moments in a column each. -/
theorem Store.call_range_eq_call_on_after [Scan] (hfollows : Scan.FollowsIndexes)
    {steps : List StoreStep} {table : String}
    (hcreate : ((createPrimitiveTable table).run (Session.after steps).database).1 = .ok ())
    (later : List StoreStep) {id : SeriesId} {b : Binding} :
    let s := Session.after (steps ++ .createTable table :: later)
    s.registry.find? id = some (.primitive b) → sameName table b.table = true →
      sameName b.dateColumn b.createdAtColumn = false →
      (∀ p ∈ s.recordedIn b.table, p.SameColumns b ∧ p.observation.date.IsFourDigit) →
      ∀ day, call s.database id .value ⟨.on day, some day⟩ =
        call s.database id .value (.on day) := by
  intro s hb htable hdiffer hrecorded day
  obtain ⟨registrations, names, h⟩ :=
    Session.exists_holds_after (steps ++ .createTable table :: later)
  have hpostings := Session.columnsDiffer_after (steps ++ .createTable table :: later)
  obtain ⟨v, hv, hcolumns, hsamples⟩ := h.exists_view hpostings hb fun p hp => (hrecorded p hp).1
  have hyears := Posting.isFourDigit_recorded fun p hp => (hrecorded p hp).2
  obtain ⟨i, hi, hindex⟩ := Session.exists_index_after hcreate later
  obtain ⟨n, hn, hvalid⟩ := h.bound id b hb
  obtain ⟨hdate, -, hcreated⟩ := Binding.columns_of_validate hvalid
  have hboth := (Session.dateIndexed_after _).isOnBoth_access hi
    (Text.sameName_trans hindex htable) hdate hcreated hdiffer v.table
  have hbinary : v.moments.collation = .binary := by
    rw [hcolumns]
    rfl
  have hdefinition : definition s.database id = .ok (some (.primitive b)) := by
    rw [h.definition_eq, hb]
  rw [call_range_eq_call_on_iff_first hdefinition hv hsamples hyears,
    View.head?_lastCollated hbinary hfollows, hboth, if_pos rfl]

/-- A series that takes its moments from the column of its dates has ties on every day, and finds
the rows by the index in the order of their own moments. -/
theorem Store.call_range_ne_call_on_shared :
    let day : Date := ⟨2024, 3, 1, by decide⟩
    let s := Session.after
      [.createTable "rent",
        .registerPrimitive (noon 1 (by decide)) "rent" (.ofList [("table_name", "rent")]),
        .registerPrimitive (noon 1 (by decide)) "rent by day"
          (.ofList [("table_name", "rent"), ("created_at_column", "date_value")]),
        .record "rent" ⟨day, 5⟩ (noon 2 (by decide)), .record "rent" ⟨day, 6⟩ (noon 3 (by decide))]
    call s.database "rent by day" .value (.on day) = .ok [⟨day, 5⟩] ∧
      call s.database "rent by day" .value ⟨.on day, some day⟩ = .ok [⟨day, 6⟩] := by
  decide +kernel

end TimeSeries
