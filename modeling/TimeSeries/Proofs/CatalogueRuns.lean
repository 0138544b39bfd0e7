import TimeSeries.Proofs.BuiltCompositions
import TimeSeries.Proofs.Sessions

/-!
The catalogue over a run of the store. It grows by one row for every registration that succeeds and
is never written to otherwise: the rows have identifiers of their own, the definitions in them have
been checked, and what is listed is what was registered.
-/
namespace TimeSeries

open Text (sameName)
open Store Database.Layout

/-! ## Definitions that have been checked -/

/-- A letter or a low line, and after it letters, digits and low lines. -/
def Text.IsPlainName (name : String) : Prop :=
  ∃ c cs, name.toList = c :: cs ∧ (c.isAlpha = true ∨ c = '_') ∧
    ∀ d ∈ cs, d.isAlpha = true ∨ d.isDigit = true ∨ d = '_'

theorem Text.isPlainName_iff {name : String} : IsPlainName name ↔ isIdentifier name = true := by
  rw [IsPlainName, isIdentifier]
  cases name.toList with
  | nil => simp
  | cons c cs => simp [isWordChar, Char.isAlphanum, or_assoc]

theorem ensureIdentifier_eq_ok_iff {name : String} :
    ensureIdentifier name = .ok () ↔ Text.IsPlainName name := by
  rw [Text.isPlainName_iff, ensureIdentifier]
  split <;> simp_all

namespace Series

/-- The names of a primitive series are plain and its table is not the catalogue; a composition has
constituents, in ascending order, and their weights make up its total. -/
def IsChecked : Series → Prop
  | .primitive b =>
    (∀ name ∈ b.names, Text.IsPlainName name) ∧ sameName catalogueName b.table = false
  | .composed c => c.constituents ≠ [] ∧ c.constituents.Pairwise (·.id < ·.id) ∧
      c.totalWeight.toInt = (c.constituents.map (·.weight.toInt)).sum

theorem isPlainName_of_validate {b : Binding} {tables : List TableSchema}
    (h : b.validate tables = .ok ()) : ∀ name ∈ b.names, Text.IsPlainName name := by
  rw [Binding.validate, bind_eq_ok_iff] at h
  obtain ⟨_, hnames, -⟩ := h
  intro name hname
  exact ensureIdentifier_eq_ok_iff.1 (forM_eq_ok_iff.1 hnames name hname)

theorem isChecked_of_ofWeights {weights : List (SeriesId × Value)} {c : Composition}
    (h : Composition.ofWeights weights = .ok c) : (Series.composed c).IsChecked := by
  obtain ⟨hne, hnodup, horder, -, htotal⟩ := Composition.ofWeights_eq_ok_iff.1 h
  rw [← horder] at htotal
  refine ⟨?_, horder ▸ (Composition.lists_inOrder hnodup).ascending, htotal⟩
  rwa [horder, ne_eq, Composition.inOrder_eq_nil_iff]

theorem isChecked_of_ofMetadata {metadata : Metadata} {c : Composition}
    (h : Composition.ofMetadata metadata = .ok c) : (Series.composed c).IsChecked := by
  obtain ⟨weights, -, h⟩ := bind_eq_ok_iff.1 h
  exact isChecked_of_ofWeights h

end Series

/-! ## Registrations that succeed -/

/-- The step registers a series, with success. -/
def StoreStep.Registers (db : Database) (info : SeriesInfo) : StoreStep → Prop
  | .registerPrimitive now id metadata =>
    info = ⟨id, .primitive⟩ ∧
      ∃ answer, ((Store.registerPrimitive now id metadata).run db).1 = .ok answer
  | .registerComposed now id metadata =>
    info = ⟨id, .composed⟩ ∧
      ∃ answer, ((Store.registerComposed now id metadata).run db).1 = .ok answer
  | _ => False

/-- What a registration comes to with a definition or the reason why there is none. -/
def Store.registering (now : Instant) (id : SeriesId) (definition : Except Error Series)
    (db : Database) : Except Error SeriesInfo × Database :=
  match definition with
  | .error e => (.error e, db)
  | .ok series => (insertDefinition now id series).run db

theorem Store.registering_primitive (now : Instant) (id : SeriesId) (metadata : Metadata)
    (db : Database) :
    registering now id ((Binding.ofMetadata metadata db.schemas).map .primitive) db =
      (registerPrimitive now id metadata).run db := by
  rw [run_registerPrimitive]
  cases Binding.ofMetadata metadata db.schemas <;> rfl

theorem Store.registering_composed (now : Instant) (id : SeriesId) (metadata : Metadata)
    (db : Database) :
    registering now id ((Composition.ofMetadata metadata).map .composed) db =
      (registerComposed now id metadata).run db := by
  rw [run_registerComposed]
  cases Composition.ofMetadata metadata <;> rfl

namespace Session

theorem keep_of_error (s : Session) (id : SeriesId) (definition : Except Error Series) (e : Error) :
    s.keep id definition (.error e, s.database) = s := by
  cases definition <;> rfl

/-- A registration fails and changes nothing, or it adds a definition under a new identifier. -/
theorem Holds.registering_cases {s : Session} {registrations : List Registration}
    {names : List String} (h : s.Holds registrations names) (now : Instant) (id : SeriesId)
    {definition : Except Error Series}
    (hbound : ∀ series, definition = .ok series → ∀ b, series = .primitive b →
      ∃ n ∈ names, b.validate [(primitiveTable n []).schema] = .ok ()) :
    (∃ e, registering now id definition s.database = (.error e, s.database)) ∨
      ∃ series db, definition = .ok series ∧ registered? registrations id = none ∧
        registering now id definition s.database = (.ok ⟨id, series.kind⟩, db) ∧
          (⟨db, s.registry.insert id series, s.postings⟩ : Session).Holds
            (registrations ++ [⟨id, series, now.stamp⟩]) names := by
  cases definition with
  | error e => exact .inl ⟨e, rfl⟩
  | ok series =>
    rcases h.insert_cases now id (hbound series rfl) with hrun | ⟨hnew, db, hrun, hkept⟩
    · exact .inl ⟨_, hrun⟩
    · exact .inr ⟨series, db, rfl, hnew, hrun, hkept⟩

/-- Some step of the run registers the series. -/
def Registered (steps : List StoreStep) (info : SeriesInfo) : Prop :=
  ∃ before step later, steps = before ++ step :: later ∧
    step.Registers (after before).database info

theorem registered_concat {steps : List StoreStep} {step : StoreStep} {info : SeriesInfo} :
    Registered (steps ++ [step]) info ↔
      Registered steps info ∨ step.Registers (after steps).database info := by
  constructor
  · rintro ⟨before, step', later, hsplit, h⟩
    induction later using List.reverseRecOn with
    | nil =>
      obtain ⟨rfl, hstep⟩ := List.append_inj' hsplit rfl
      cases hstep
      exact .inr h
    | append_singleton later last _ =>
      rw [← List.cons_append, ← List.append_assoc] at hsplit
      obtain ⟨rfl, -⟩ := List.append_inj' hsplit rfl
      exact .inl ⟨before, step', later, rfl, h⟩
  · rintro (⟨before, step', later, rfl, h⟩ | h)
    · exact ⟨before, step', later ++ [step], by simp, h⟩
    · exact ⟨steps, step, [], rfl, h⟩

/-- The registrations of a run, in order, as the catalogue keeps them. -/
structure Catalogues (steps : List StoreStep) (registrations : List Registration) : Prop where
  holds : ∃ names, (after steps).Holds registrations names
  nodup : (registrations.map (·.id)).Nodup
  checked : ∀ r ∈ registrations, r.series.IsChecked
  registered : ∀ info, Registered steps info ↔ ∃ r ∈ registrations, ⟨r.id, r.series.kind⟩ = info

theorem catalogues_nil : Catalogues [] [] where
  holds := ⟨[], holds_start⟩
  nodup := .nil
  checked := nofun
  registered info := by
    constructor
    · rintro ⟨before, step, later, hsplit, -⟩
      simp at hsplit
    · rintro ⟨r, hr, -⟩
      cases hr

section Step
variable {steps : List StoreStep} {registrations : List Registration} {step : StoreStep}

/-- A step that registers nothing leaves the registrations as they are. -/
theorem Catalogues.skip (h : Catalogues steps registrations)
    (hholds : ∃ names, (after (steps ++ [step])).Holds registrations names)
    (hnone : ∀ info, ¬ step.Registers (after steps).database info) :
    Catalogues (steps ++ [step]) registrations where
  holds := hholds
  nodup := h.nodup
  checked := h.checked
  registered info := by rw [registered_concat, or_iff_left (hnone info), h.registered]

/-- A step that registers a series adds its definition at the end. -/
theorem Catalogues.add (h : Catalogues steps registrations) {r : Registration}
    (hholds : ∃ names, (after (steps ++ [step])).Holds (registrations ++ [r]) names)
    (hnew : registered? registrations r.id = none) (hchecked : r.series.IsChecked)
    (hstep : ∀ info, step.Registers (after steps).database info ↔ ⟨r.id, r.series.kind⟩ = info) :
    Catalogues (steps ++ [step]) (registrations ++ [r]) where
  holds := hholds
  nodup := by
    rw [List.map_append, List.nodup_append]
    refine ⟨h.nodup, by simp, ?_⟩
    intro x hx y hy
    obtain ⟨r', hr', rfl⟩ := List.mem_map.1 hx
    obtain rfl := List.mem_singleton.1 hy
    exact registered?_eq_none_iff.1 hnew r' hr'
  checked := by
    rw [List.forall_mem_append, List.forall_mem_singleton]
    exact ⟨h.checked, hchecked⟩
  registered info := by
    rw [registered_concat, h.registered, hstep]
    simp [or_and_right, exists_or]

/-- A definition that passes its checks is added if its identifier is new, and else nothing is. -/
theorem Catalogues.register (h : Catalogues steps registrations) {names : List String}
    (hs : (after steps).Holds registrations names) (kind : SeriesKind) {now : Instant}
    {id : SeriesId} {definition : Except Error Series}
    (hperform : (after steps).perform step =
      (after steps).keep id definition (registering now id definition (after steps).database))
    (hregisters : ∀ info, step.Registers (after steps).database info ↔ info = ⟨id, kind⟩ ∧
      ∃ answer, (registering now id definition (after steps).database).1 = .ok answer)
    (hchecks : ∀ series, definition = .ok series →
      series.kind = kind ∧ series.IsChecked ∧ ∀ b, series = .primitive b →
        ∃ n ∈ names, b.validate [(primitiveTable n []).schema] = .ok ()) :
    ∃ added, Catalogues (steps ++ [step]) (registrations ++ added) := by
  rcases hs.registering_cases now id fun series hseries => (hchecks series hseries).2.2 with
    ⟨e, hrun⟩ | ⟨series, db, rfl, hnew, hrun, hkept⟩
  · rw [hrun] at hperform hregisters
    refine ⟨[], ?_⟩
    rw [List.append_nil]
    apply h.skip
    · rw [after_concat, hperform, keep_of_error]
      exact ⟨names, hs⟩
    · intro info hinfo
      obtain ⟨-, answer, hanswer⟩ := (hregisters info).1 hinfo
      cases hanswer
  · obtain ⟨rfl, hchecked, -⟩ := hchecks series rfl
    rw [hrun] at hperform hregisters
    refine ⟨[⟨id, series, now.stamp⟩], h.add ?_ hnew hchecked fun info => ?_⟩
    · rw [after_concat, hperform]
      exact ⟨names, hkept⟩
    · rw [hregisters]
      exact ⟨fun hinfo => hinfo.1.symm, fun hinfo => ⟨hinfo.symm, _, rfl⟩⟩

/-- One more step keeps the registrations that there are. -/
theorem Catalogues.concat (h : Catalogues steps registrations) (step : StoreStep) :
    ∃ added, Catalogues (steps ++ [step]) (registrations ++ added) := by
  obtain ⟨names, hs⟩ := h.holds
  have hskip (hholds : ∃ names, ((after steps).perform step).Holds registrations names)
      (hnone : ∀ info, ¬ step.Registers (after steps).database info) :
      ∃ added, Catalogues (steps ++ [step]) (registrations ++ added) := by
    rw [← after_concat] at hholds
    exact ⟨[], by simpa using h.skip hholds hnone⟩
  cases step with
  | createTable table => exact hskip (hs.createTable table) nofun
  | record id observation moment => exact hskip ⟨names, hs.record id observation moment⟩ nofun
  | list => exact hskip ⟨names, hs⟩ nofun
  | call id method query => exact hskip ⟨names, hs⟩ nofun
  | reopen => exact hskip ⟨names, hs.reopen⟩ nofun
  | registerPrimitive now id metadata =>
    have hrun := registering_primitive now id metadata (after steps).database
    have hperform : (after steps).perform (.registerPrimitive now id metadata) =
        (after steps).keep id _ (registering now id _ (after steps).database) :=
      congrArg ((after steps).keep id _) hrun.symm
    apply h.register hs .primitive hperform
    · rw [hrun]
      exact fun _ => Iff.rfl
    · intro series hseries
      obtain ⟨b, hb, rfl⟩ := map_eq_ok_iff.1 hseries
      have hvalid := (Binding.ofMetadata_eq_ok_iff.1 hb).2.2
      obtain ⟨n, hn, hbound⟩ := hs.layout.exists_bound hvalid
      refine ⟨rfl, ⟨Series.isPlainName_of_validate hvalid, ?_⟩, ?_⟩
      · exact hs.layout.not_sameName_of_bound hn hbound
      · rintro b' ⟨⟩
        exact ⟨n, hn, hbound⟩
  | registerComposed now id metadata =>
    have hrun := registering_composed now id metadata (after steps).database
    have hperform : (after steps).perform (.registerComposed now id metadata) =
        (after steps).keep id _ (registering now id _ (after steps).database) :=
      congrArg ((after steps).keep id _) hrun.symm
    apply h.register hs .composed hperform
    · rw [hrun]
      exact fun _ => Iff.rfl
    · intro series hseries
      obtain ⟨c, hc, rfl⟩ := map_eq_ok_iff.1 hseries
      exact ⟨rfl, Series.isChecked_of_ofMetadata hc, nofun⟩

end Step

/-- What is registered stays registered, in its place, over any further run. -/
theorem Catalogues.append {steps : List StoreStep} {registrations : List Registration}
    (h : Catalogues steps registrations) (later : List StoreStep) :
    ∃ added, Catalogues (steps ++ later) (registrations ++ added) := by
  induction later using List.reverseRecOn with
  | nil => exact ⟨[], by simpa using h⟩
  | append_singleton later step ih =>
    obtain ⟨added, hadded⟩ := ih
    obtain ⟨added', hadded'⟩ := hadded.concat step
    rw [List.append_assoc, List.append_assoc] at hadded'
    exact ⟨added ++ added', hadded'⟩

theorem exists_catalogues (steps : List StoreStep) :
    ∃ registrations, Catalogues steps registrations := by
  obtain ⟨registrations, h⟩ := catalogues_nil.append steps
  exact ⟨registrations, h⟩

/-! ## What is stored and listed -/

theorem Catalogues.entries?_eq {steps : List StoreStep} {registrations : List Registration}
    (h : Catalogues steps registrations) :
    entries? (after steps).database = some (registrations.map Registration.entry) := by
  obtain ⟨names, hs⟩ := h.holds
  exact hs.layout.entries?_eq

theorem info?_entry (r : Registration) :
    (Registration.entry r).info? = some ⟨r.id, r.series.kind⟩ := by
  have hkind : ∀ kind, kindOfName? (SeriesKind.name kind) = some kind := by
    rintro (_ | _) <;> decide
  rw [Registration.entry, Store.Entry.info?, hkind]
  rfl

theorem Catalogues.nodup_entries {steps : List StoreStep} {registrations : List Registration}
    (h : Catalogues steps registrations) :
    ((registrations.map Registration.entry).map (·.id)).Nodup := by
  have hids : (registrations.map Registration.entry).map (·.id) =
      (registrations.map (·.id)).map Cell.text := by
    rw [List.map_map, List.map_map]
    rfl
  rw [hids]
  exact List.pairwise_map.2 (h.nodup.imp fun hne heq => hne (Cell.text.inj heq))

/-- The catalogue is listed by identifier, one line for each registration. -/
theorem Catalogues.exists_list {steps : List StoreStep} {registrations : List Registration}
    (h : Catalogues steps registrations) : ∃ infos, list (after steps).database = .ok infos ∧
      infos.Pairwise (·.id < ·.id) ∧
      ∀ info, info ∈ infos ↔ ∃ r ∈ registrations, ⟨r.id, r.series.kind⟩ = info := by
  let before (a b : Store.Entry) : Bool := Cell.le a.id b.id
  let sorted := Sorted.sort before (registrations.map Registration.entry)
  have hperm : sorted.Perm (registrations.map Registration.entry) := Sorted.perm_sort _ _
  have hmem {e : Store.Entry} : e ∈ sorted ↔ ∃ r ∈ registrations, Registration.entry r = e := by
    rw [hperm.mem_iff, List.mem_map]
  have hinfos : sorted.mapM Store.Entry.info? = some (sorted.filterMap Store.Entry.info?) := by
    apply mapM_eq_some_filterMap
    intro e he
    obtain ⟨r, -, rfl⟩ := hmem.1 he
    rw [info?_entry]
    rfl
  have hsorted : sorted.Pairwise fun a b => Cell.le a.id b.id = true :=
    Sorted.pairwise_sort (fun a b c => Cell.le_trans a.id b.id c.id)
      (fun a b => Cell.le_total a.id b.id) _
  have hdiffer : (sorted.map Store.Entry.id).Nodup :=
    (hperm.map Store.Entry.id).nodup_iff.2 h.nodup_entries
  refine ⟨sorted.filterMap Store.Entry.info?, ?_, ?_, fun info => ?_⟩
  · rw [list, h.entries?_eq]
    dsimp only
    rw [hinfos]
    rfl
  · rw [List.pairwise_filterMap]
    apply (hsorted.and (List.pairwise_map.1 hdiffer)).imp_of_mem
    rintro a b ha hb ⟨hle, hne⟩ info hinfo info' hinfo'
    obtain ⟨r, -, rfl⟩ := hmem.1 ha
    obtain ⟨r', -, rfl⟩ := hmem.1 hb
    rw [info?_entry, Option.some.injEq] at hinfo hinfo'
    obtain rfl := hinfo
    obtain rfl := hinfo'
    apply Std.lt_of_le_of_ne (of_decide_eq_true hle)
    exact fun heq => hne (congrArg Cell.text heq)
  · rw [List.mem_filterMap]
    constructor
    · rintro ⟨e, he, hinfo⟩
      obtain ⟨r, hr, rfl⟩ := hmem.1 he
      rw [info?_entry] at hinfo
      exact ⟨r, hr, Option.some.inj hinfo⟩
    · rintro ⟨r, hr, rfl⟩
      exact ⟨_, hmem.2 ⟨r, hr, rfl⟩, info?_entry r⟩

/-- After any run the catalogue can be read. Its identifiers differ; each kind is that of the
definition beside it, which has been checked; no row is ever changed by a further run; and what is
listed, in ascending order, is exactly what was registered with success, with its kind. -/
theorem catalogue_after (steps : List StoreStep) :
    ∃ entries, entries? (after steps).database = some entries ∧
      (entries.map (·.id)).Nodup ∧
      (∀ e ∈ entries, ∃ id series, e.id = .text id ∧ e.kind = .text series.kind.name ∧
        e.series? = some series ∧ series.IsChecked) ∧
      (∀ later, ∃ added, entries? (after (steps ++ later)).database = some (entries ++ added)) ∧
      ∃ infos, list (after steps).database = .ok infos ∧ infos.Pairwise (·.id < ·.id) ∧
        ∀ info, info ∈ infos ↔ Registered steps info := by
  obtain ⟨registrations, h⟩ := exists_catalogues steps
  obtain ⟨infos, hlist, hascending, hmem⟩ := h.exists_list
  refine ⟨registrations.map Registration.entry, h.entries?_eq, h.nodup_entries, ?_, ?_,
    infos, hlist, hascending, fun info => ?_⟩
  · intro e he
    obtain ⟨r, hr, rfl⟩ := List.mem_map.1 he
    exact ⟨r.id, r.series, rfl, rfl, series?_entry r, h.checked r hr⟩
  · intro later
    obtain ⟨added, hadded⟩ := h.append later
    rw [hadded.entries?_eq, List.map_append]
    exact ⟨_, rfl⟩
  · rw [hmem, h.registered]

end Session
end TimeSeries
