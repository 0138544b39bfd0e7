import Mathlib.Data.List.Induction
import TimeSeries.Proofs.Actions

/-!
Runs of a store from an empty database. A session keeps beside the database what its successful
steps have registered and recorded, and after every run the database holds exactly that.
-/
namespace TimeSeries

open Text (sameName)
open Store

/-- What a caller can ask of a store. -/
inductive StoreStep where
  | createTable (table : String)
  | registerPrimitive (now : Instant) (id : SeriesId) (metadata : Metadata)
  | registerComposed (now : Instant) (id : SeriesId) (metadata : Metadata)
  | record (id : SeriesId) (observation : Observation) (moment : Instant)
  | list
  | call (id : SeriesId) (method : Method) (query : Query)
  | reopen

/-- A database, and what was registered and recorded in it. -/
structure Session where
  database : Database
  registry : Registry
  postings : List Posting

namespace Session

def start : Session := ⟨Store.fresh, .empty, []⟩

/-- Keep a definition if its registration succeeded. -/
def keep (s : Session) (id : SeriesId) (series : Except Error Series)
    (result : Except Error SeriesInfo × Database) : Session :=
  match series, result with
  | .ok series, (.ok _, db) => { s with database := db, registry := s.registry.insert id series }
  | _, (_, db) => { s with database := db }

/-- Keep an observation if recording it succeeded. -/
def post (s : Session) (id : SeriesId) (observation : Observation) (moment : Instant)
    (result : Except Error Unit × Database) : Session :=
  match s.registry.find? id, result with
  | some (.primitive b), (.ok _, db) =>
    { s with database := db, postings := s.postings ++ [⟨b, observation, moment⟩] }
  | _, (_, db) => { s with database := db }

/-- The session after a step, which may fail. -/
def perform (s : Session) : StoreStep → Session
  | .createTable table =>
    { s with database := ((createPrimitiveTable table).run s.database).2 }
  | .registerPrimitive now id metadata =>
    s.keep id ((Binding.ofMetadata metadata s.database.schemas).map .primitive)
      ((registerPrimitive now id metadata).run s.database)
  | .registerComposed now id metadata =>
    s.keep id ((Composition.ofMetadata metadata).map .composed)
      ((registerComposed now id metadata).run s.database)
  | .record id observation moment =>
    s.post id observation moment ((record id observation moment).run s.database)
  | .list | .call _ _ _ => s
  | .reopen => { s with database := opened s.database }

/-- The session after a run. -/
def after (steps : List StoreStep) : Session := steps.foldl perform start

/-- The rows that were recorded into a table. -/
def rows (s : Session) (table : String) : List Row :=
  (s.postings.filter (·.isIn table)).map Posting.row

theorem rows_concat (s : Session) (p : Posting) (db : Database) :
    (⟨db, s.registry, s.postings ++ [p]⟩ : Session).rows =
      fun table => if p.isIn table then s.rows table ++ [p.row] else s.rows table := by
  funext table
  simp only [rows, List.filter_append, List.filter_singleton]
  cases p.isIn table <;> simp

theorem post_of_error (s : Session) (id : SeriesId) (observation : Observation) (moment : Instant)
    (e : Error) : s.post id observation moment (.error e, s.database) = s := by
  unfold post
  cases s.registry.find? id with
  | none => rfl
  | some series => cases series <;> rfl

theorem registry_keep_of_ok (s : Session) (id : SeriesId) {series : Except Error Series}
    {result : Except Error SeriesInfo × Database} {info : SeriesInfo} (hok : result.1 = .ok info)
    (herror : ∀ e, series = .error e → result.1 = .error e) :
    ∃ x, series = .ok x ∧ (s.keep id series result).registry = s.registry.insert id x := by
  obtain ⟨outcome, db⟩ := result
  obtain rfl : outcome = .ok info := hok
  cases series with
  | error e => cases herror e rfl
  | ok x => exact ⟨x, rfl, rfl⟩

/-- A definition that is registered is kept. -/
theorem registry_of_registerPrimitive {s : Session} {now : Instant} {id : SeriesId}
    {metadata : Metadata} {info : SeriesInfo}
    (hok : ((Store.registerPrimitive now id metadata).run s.database).1 = .ok info) :
    ∃ x, (Binding.ofMetadata metadata s.database.schemas).map Series.primitive = .ok x ∧
      (s.perform (.registerPrimitive now id metadata)).registry = s.registry.insert id x := by
  apply s.registry_keep_of_ok id hok
  intro e he
  rw [run_registerPrimitive]
  cases hb : Binding.ofMetadata metadata s.database.schemas with
  | error e' =>
    rw [hb] at he
    cases he
    rfl
  | ok b =>
    rw [hb] at he
    cases he

theorem registry_of_registerComposed {s : Session} {now : Instant} {id : SeriesId}
    {metadata : Metadata} {info : SeriesInfo}
    (hok : ((Store.registerComposed now id metadata).run s.database).1 = .ok info) :
    ∃ x, (Composition.ofMetadata metadata).map Series.composed = .ok x ∧
      (s.perform (.registerComposed now id metadata)).registry = s.registry.insert id x := by
  apply s.registry_keep_of_ok id hok
  intro e he
  rw [run_registerComposed]
  cases hc : Composition.ofMetadata metadata with
  | error e' =>
    rw [hc] at he
    cases he
    rfl
  | ok c =>
    rw [hc] at he
    cases he

/-- The database is laid out with what was registered and recorded, and only what is registered was
recorded under. -/
structure Holds (s : Session) (registrations : List Registration) (names : List String) : Prop where
  layout : s.database.Layout registrations names s.rows
  registry : ∀ id, s.registry.find? id = registered? registrations id
  bound : ∀ id b, s.registry.find? id = some (.primitive b) →
    ∃ n ∈ names, b.validate [(primitiveTable n []).schema] = .ok ()
  posted : ∀ p ∈ s.postings, ∃ id, s.registry.find? id = some (.primitive p.binding)

namespace Holds

variable {s : Session} {registrations : List Registration} {names : List String}

theorem definition_eq (h : s.Holds registrations names) (id : SeriesId) :
    definition s.database id = .ok (s.registry.find? id) := by
  rw [h.layout.definition_eq, h.registry]

theorem exists_sameName (h : s.Holds registrations names) {p : Posting} (hp : p ∈ s.postings) :
    ∃ n ∈ names, sameName n p.binding.table = true := by
  obtain ⟨id, hid⟩ := h.posted p hp
  obtain ⟨n, hn, hvalid⟩ := h.bound id p.binding hid
  have hsame := Database.Layout.sameName_of_validate hvalid
  exact ⟨n, hn, hsame⟩

/-- Nothing was recorded into a table that there is not. -/
theorem rows_eq_nil (h : s.Holds registrations names) {table : String}
    (hnew : s.database.table? table = none) : s.rows table = [] := by
  rw [rows, List.map_eq_nil_iff, List.filter_eq_nil_iff]
  intro p hp hin
  obtain ⟨n, hn, hsame⟩ := h.exists_sameName hp
  have hin : sameName table p.binding.table = true := hin
  have hname : sameName n table = true :=
    Text.sameName_trans hsame ((Text.sameName_comm p.binding.table table).trans hin)
  rw [h.layout.table?_primitive hn hname] at hnew
  cases hnew

theorem with_database (h : s.Holds registrations names) {db : Database} {names' : List String}
    (hsub : names ⊆ names') (hlayout : db.Layout registrations names' s.rows) :
    ({ s with database := db } : Session).Holds registrations names' where
  layout := hlayout
  registry := h.registry
  bound id b hb := by
    obtain ⟨n, hn, hvalid⟩ := h.bound id b hb
    exact ⟨n, hsub hn, hvalid⟩
  posted := h.posted

theorem createTable (h : s.Holds registrations names) (table : String) :
    ∃ names', (s.perform (.createTable table)).Holds registrations names' := by
  have hrows : s.database.table? table = none → s.rows table = [] := h.rows_eq_nil
  obtain ⟨names', hsub, hlayout⟩ := exists_layout_createPrimitiveTable h.layout hrows
  exact ⟨names', h.with_database hsub hlayout⟩

theorem register (h : s.Holds registrations names) {r : Registration} {db : Database}
    (hnew : registered? registrations r.id = none)
    (hlayout : db.Layout (registrations ++ [r]) names s.rows)
    (hbound : ∀ b, r.series = .primitive b →
      ∃ n ∈ names, b.validate [(primitiveTable n []).schema] = .ok ()) :
    (⟨db, s.registry.insert r.id r.series, s.postings⟩ : Session).Holds (registrations ++ [r])
      names := by
  have hfind (id : SeriesId) : (s.registry.insert r.id r.series).find? id =
      registered? (registrations ++ [r]) id := by
    rw [registered?_append, ← h.registry]
    by_cases hid : r.id = id
    · rw [← hid, SortedMap.find?_insert_self, h.registry, hnew, if_pos rfl, Option.none_or]
    · rw [SortedMap.find?_insert_of_ne _ (Ne.symm hid), if_neg hid, Option.or_none]
  refine ⟨hlayout, hfind, ?_, ?_⟩
  · intro id b hb
    by_cases hid : id = r.id
    · rw [hid, SortedMap.find?_insert_self] at hb
      exact hbound b (Option.some.inj hb)
    · rw [SortedMap.find?_insert_of_ne _ hid] at hb
      exact h.bound id b hb
  · intro p hp
    obtain ⟨id, hid⟩ := h.posted p hp
    refine ⟨id, ?_⟩
    rw [hfind, registered?_append, ← h.registry, hid, Option.some_or]

/-- A definition is refused if its identifier is taken, and else it is kept. -/
theorem insert_cases (h : s.Holds registrations names) (now : Instant) (id : SeriesId)
    {series : Series} (hbound : ∀ b, series = .primitive b →
      ∃ n ∈ names, b.validate [(primitiveTable n []).schema] = .ok ()) :
    (insertDefinition now id series).run s.database = (.error (.seriesExists id), s.database) ∨
      registered? registrations id = none ∧ ∃ db,
        (insertDefinition now id series).run s.database = (.ok ⟨id, series.kind⟩, db) ∧
          (⟨db, s.registry.insert id series, s.postings⟩ : Session).Holds
            (registrations ++ [⟨id, series, now.stamp⟩]) names := by
  by_cases hnew : registered? registrations id = none
  · obtain ⟨db, hrun, hlayout⟩ := run_insertDefinition_of_new h.layout now series hnew
    exact .inr ⟨hnew, db, hrun, h.register (r := ⟨id, series, now.stamp⟩) hnew hlayout hbound⟩
  · exact .inl (run_insertDefinition_of_taken h.layout now series hnew)

/-- A definition is kept exactly if its identifier is new. -/
theorem keep (h : s.Holds registrations names) (now : Instant) (id : SeriesId) {series : Series}
    (hbound : ∀ b, series = .primitive b →
      ∃ n ∈ names, b.validate [(primitiveTable n []).schema] = .ok ()) :
    ∃ registrations', (s.keep id (.ok series) ((insertDefinition now id series).run s.database)).Holds
      registrations' names := by
  rcases h.insert_cases now id hbound with hrun | ⟨-, db, hrun, hkept⟩
  · rw [hrun]
    exact ⟨registrations, h⟩
  · rw [hrun]
    exact ⟨_, hkept⟩

theorem registerPrimitive (h : s.Holds registrations names) (now : Instant) (id : SeriesId)
    (metadata : Metadata) : ∃ registrations',
      (s.perform (.registerPrimitive now id metadata)).Holds registrations' names := by
  rw [perform, run_registerPrimitive]
  cases hb : Binding.ofMetadata metadata s.database.schemas with
  | error e => exact ⟨registrations, h⟩
  | ok b =>
    apply h.keep
    rintro b' ⟨⟩
    exact h.layout.exists_bound ((Binding.ofMetadata_eq_ok_iff.1 hb).2.2)

theorem registerComposed (h : s.Holds registrations names) (now : Instant) (id : SeriesId)
    (metadata : Metadata) : ∃ registrations',
      (s.perform (.registerComposed now id metadata)).Holds registrations' names := by
  rw [perform, run_registerComposed]
  cases Composition.ofMetadata metadata with
  | error e => exact ⟨registrations, h⟩
  | ok c => exact h.keep now id nofun

theorem not_sameName_catalogue (h : s.Holds registrations names) {id : SeriesId} {b : Binding}
    (hb : s.registry.find? id = some (.primitive b)) : sameName catalogueName b.table = false := by
  obtain ⟨n, hn, hvalid⟩ := h.bound id b hb
  exact h.layout.not_sameName_of_bound hn hvalid

/-- A recorded observation goes to the table that its series is bound to. -/
theorem record (h : s.Holds registrations names) (id : SeriesId) (observation : Observation)
    (moment : Instant) :
    (s.perform (.record id observation moment)).Holds registrations names := by
  rw [perform, run_record h.layout, ← h.registry]
  cases hs : s.registry.find? id with
  | none => exact (s.post_of_error id observation moment _).symm ▸ h
  | some series =>
    cases series with
    | composed c => exact (s.post_of_error id observation moment _).symm ▸ h
    | primitive b =>
      dsimp only
      cases hinsert : s.database.insert? b.table (Posting.given ⟨b, observation, moment⟩) with
      | none => exact (s.post_of_error id observation moment _).symm ▸ h
      | some db' =>
        have hpost : s.post id observation moment (.ok (), db') =
            ⟨db', s.registry, s.postings ++ [⟨b, observation, moment⟩]⟩ := by
          unfold post
          rw [hs]
        rw [hpost]
        refine ⟨?_, h.registry, h.bound, ?_⟩
        · rw [rows_concat]
          exact h.layout.insert_primitive hinsert (h.not_sameName_catalogue hs)
        · intro p hp
          rcases List.mem_append.1 hp with hp | hp
          · exact h.posted p hp
          · obtain rfl := List.mem_singleton.1 hp
            exact ⟨id, hs⟩

/-- Whatever is recorded is kept, under the binding of its series. -/
theorem postings_of_record (h : s.Holds registrations names) {id : SeriesId}
    {observation : Observation} {moment : Instant}
    (hok : ((Store.record id observation moment).run s.database).1 = .ok ()) :
    ∃ b, s.registry.find? id = some (.primitive b) ∧
      (s.perform (.record id observation moment)).postings =
        s.postings ++ [⟨b, observation, moment⟩] := by
  generalize hrun : (Store.record id observation moment).run s.database = result at hok
  obtain ⟨outcome, db⟩ := result
  obtain rfl : outcome = .ok () := hok
  have hbinding := hrun
  rw [run_record h.layout, ← h.registry] at hbinding
  cases hs : s.registry.find? id with
  | none =>
    rw [hs] at hbinding
    cases hbinding
  | some series =>
    cases series with
    | composed c =>
      rw [hs] at hbinding
      cases hbinding
    | primitive b =>
      refine ⟨b, rfl, ?_⟩
      rw [perform, hrun]
      unfold post
      rw [hs]

theorem reopen (h : s.Holds registrations names) : (s.perform .reopen).Holds registrations names := by
  rw [perform, h.layout.opened_eq]
  exact h

end Holds

theorem holds_start : start.Holds [] [] :=
  ⟨⟨rfl, by decide⟩, fun _ => rfl, nofun, nofun⟩

/-- No step, successful or not, takes the database away from what was registered and recorded. -/
theorem Holds.perform {s : Session} {registrations : List Registration} {names : List String}
    (h : s.Holds registrations names) (step : StoreStep) :
    ∃ registrations' names', (s.perform step).Holds registrations' names' := by
  cases step with
  | createTable table => exact ⟨registrations, h.createTable table⟩
  | registerPrimitive now id metadata =>
    obtain ⟨registrations', h'⟩ := h.registerPrimitive now id metadata
    exact ⟨registrations', names, h'⟩
  | registerComposed now id metadata =>
    obtain ⟨registrations', h'⟩ := h.registerComposed now id metadata
    exact ⟨registrations', names, h'⟩
  | record id observation moment => exact ⟨registrations, names, h.record id observation moment⟩
  | list => exact ⟨registrations, names, h⟩
  | call id method query => exact ⟨registrations, names, h⟩
  | reopen => exact ⟨registrations, names, h.reopen⟩

theorem after_concat (steps : List StoreStep) (step : StoreStep) :
    after (steps ++ [step]) = (after steps).perform step := by
  rw [after, List.foldl_append]
  rfl

/-- What holds at the start and is kept by every step holds after every run. -/
theorem after_induction {P : Session → Prop} (hstart : P start) {steps : List StoreStep}
    (hstep : ∀ s, P s → ∀ step ∈ steps, P (s.perform step)) : P (after steps) := by
  induction steps using List.reverseRecOn with
  | nil => exact hstart
  | append_singleton steps step ih =>
    rw [after, List.foldl_append]
    apply hstep _ (ih fun s hs step' hstep' => hstep s hs step' (List.mem_append_left _ hstep'))
    simp

theorem exists_holds_after (steps : List StoreStep) :
    ∃ registrations names, (after steps).Holds registrations names := by
  apply after_induction (P := fun s => ∃ registrations names, s.Holds registrations names)
  · exact ⟨[], [], holds_start⟩
  · rintro s ⟨registrations, names, h⟩ step _
    exact h.perform step

/-- What every step keeps holds from any point of a run on, if it holds there. -/
theorem after_append_induction {P : Session → Prop} {steps : List StoreStep} (h : P (after steps))
    (hstep : ∀ {s : Session} {registrations names}, s.Holds registrations names → P s →
      ∀ step, P (s.perform step))
    (later : List StoreStep) : P (after (steps ++ later)) := by
  induction later using List.reverseRecOn with
  | nil => rwa [List.append_nil]
  | append_singleton later step ih =>
    obtain ⟨registrations, names, hholds⟩ := exists_holds_after (steps ++ later)
    rw [← List.append_assoc, after_concat]
    exact hstep hholds ih step

/-! ## Standard bindings -/

/-- The metadata leave the columns to the standard names. -/
def NamesNoColumn (metadata : Metadata) : Prop :=
  ∀ key ∈ ["date_column", "value_column", "created_at_column"], metadata.find? key = none

/-- A registration of a primitive series names no columns; any other step will do. -/
def StandardStep : StoreStep → Prop
  | .registerPrimitive _ _ metadata => NamesNoColumn metadata
  | _ => True

instance : DecidablePred StandardStep
  | .registerPrimitive _ _ metadata =>
    inferInstanceAs (Decidable (∀ key ∈ ["date_column", "value_column", "created_at_column"],
      metadata.find? key = none))
  | .createTable _ | .registerComposed _ _ _ | .record _ _ _ | .list | .call _ _ _ | .reopen =>
    .isTrue trivial

/-- Every primitive series is bound to a table by the standard names of its columns. -/
def IsStandard (s : Session) : Prop :=
  ∀ id b, s.registry.find? id = some (.primitive b) → b = .standard b.table

theorem IsStandard.keep {s : Session} (h : s.IsStandard) (id : SeriesId)
    {series : Except Error Series} (hseries : ∀ b, series = .ok (.primitive b) → b = .standard b.table)
    (result : Except Error SeriesInfo × Database) : (s.keep id series result).IsStandard := by
  obtain ⟨outcome, db⟩ := result
  unfold Session.keep
  cases series with
  | error e => exact h
  | ok series =>
    cases outcome with
    | error e => exact h
    | ok info =>
      intro id' b hb
      by_cases hid : id' = id
      · rw [hid, SortedMap.find?_insert_self] at hb
        exact hseries b (congrArg Except.ok (Option.some.inj hb))
      · rw [SortedMap.find?_insert_of_ne _ hid] at hb
        exact h id' b hb

theorem IsStandard.post {s : Session} (h : s.IsStandard) (id : SeriesId) (observation : Observation)
    (moment : Instant) (result : Except Error Unit × Database) :
    (s.post id observation moment result).IsStandard := by
  unfold Session.post
  split <;> exact h

theorem asked_of_namesNoColumn {metadata : Metadata} (h : NamesNoColumn metadata) (table : String) :
    Binding.asked metadata table = .standard table := by
  rw [Binding.asked, h "date_column" (by simp), h "value_column" (by simp),
    h "created_at_column" (by simp)]
  rfl

theorem isStandard_after {steps : List StoreStep} (h : ∀ step ∈ steps, StandardStep step) :
    (after steps).IsStandard := by
  apply after_induction
  · intro id b hb
    cases hb
  · intro s hs step hstep
    cases step with
    | registerPrimitive now id metadata =>
      apply hs.keep
      intro b hb
      obtain ⟨b', hof, hb⟩ := map_eq_ok_iff.1 hb
      cases hb
      obtain ⟨-, hasked, -⟩ := Binding.ofMetadata_eq_ok_iff.1 hof
      exact hasked.trans (asked_of_namesNoColumn (h _ hstep) b.table)
    | registerComposed now id metadata =>
      apply hs.keep
      intro b hb
      obtain ⟨c, -, hb⟩ := map_eq_ok_iff.1 hb
      cases hb
    | record id observation moment => exact hs.post id observation moment _
    | _ => exact hs

end Session
end TimeSeries
