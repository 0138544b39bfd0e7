import TimeSeries.Proofs.Recording

/-!
What is written comes back. Under an identifier that is free any definition can be written, and the
catalogue holds that very definition from then on; observations and results come back from their
texts too, when their years are in four digits.
-/
namespace TimeSeries

open Store

namespace Session

variable {s : Session} {registrations : List Registration} {names : List String}

theorem Holds.exists_insertDefinition (h : s.Holds registrations names) {id : SeriesId}
    (hfree : definition s.database id = .ok none) (now : Instant) (series : Series) :
    ∃ db, (insertDefinition now id series).run s.database = (.ok ⟨id, series.kind⟩, db) ∧
      definition db id = .ok (some series) ∧ opened db = db := by
  have hnew : registered? registrations id = none := by
    rw [h.layout.definition_eq] at hfree
    exact Except.ok.inj hfree
  obtain ⟨db, hrun, hlayout⟩ := run_insertDefinition_of_new h.layout now series hnew
  refine ⟨db, hrun, ?_, hlayout.opened_eq⟩
  rw [hlayout.definition_eq, registered?_append, hnew, if_pos rfl, Option.none_or]

theorem definition_after (steps : List StoreStep) (id : SeriesId) :
    definition (after steps).database id = .ok ((after steps).registry.find? id) := by
  obtain ⟨registrations, names, h⟩ := exists_holds_after steps
  exact h.definition_eq id

/-- A composition that is registered is the one of the metadata, and the definition from then
on. -/
theorem exists_composition_after {steps : List StoreStep} {now : Instant} {id : SeriesId}
    {metadata : Metadata} {info : SeriesInfo}
    (hok : ((registerComposed now id metadata).run (after steps).database).1 = .ok info) :
    ∃ c, Composition.ofMetadata metadata = .ok c ∧
      ∀ later, (after (steps ++ .registerComposed now id metadata :: later)).registry.find? id =
        some (.composed c) := by
  obtain ⟨series, hseries, hregistry⟩ := registry_of_registerComposed hok
  obtain ⟨c, hc, rfl⟩ := map_eq_ok_iff.1 hseries
  exact ⟨c, hc, find?_after_step hregistry⟩

end Session

/-- Definitions come back from their texts whatever they hold, and so do methods and what is said
about a series. Observations and results come back if their years are in four digits. After any run
a definition can be written under a free identifier and is then found as it is, also in a store that
is opened again. What is registered stays the definition that the metadata make up, whatever is done
later. -/
theorem Store.definition_read_back :
    (∀ series, Codec.series.read (Codec.series.write series) = .ok series) ∧
      (∀ info, Codec.seriesInfo.read (Codec.seriesInfo.write info) = .ok info) ∧
      (∀ method, Codec.method.read (Codec.method.write method) = .ok method) ∧
      (∀ o : Observation, o.date.IsFourDigit →
        Codec.observation.read (Codec.observation.write o) = .ok o) ∧
      (∀ result : ResultSet, (∀ o ∈ result.rows, o.date.IsFourDigit) →
        Codec.resultSet.read (Codec.resultSet.write result) = .ok result) ∧
      ∀ (steps : List StoreStep) (now : Instant) (id : SeriesId),
        let db := (Session.after steps).database
        (definition db id = .ok none → ∀ series, ∃ db',
          (insertDefinition now id series).run db = (.ok ⟨id, series.kind⟩, db') ∧
            definition db' id = .ok (some series) ∧
            definition (opened db') id = .ok (some series)) ∧
        ∀ metadata info,
          (((registerPrimitive now id metadata).run db).1 = .ok info →
            ∃ b, Binding.ofMetadata metadata db.schemas = .ok b ∧ ∀ later,
              definition (Session.after
                (steps ++ .registerPrimitive now id metadata :: later)).database id =
                  .ok (some (.primitive b))) ∧
          (((registerComposed now id metadata).run db).1 = .ok info →
            ∃ c, Composition.ofMetadata metadata = .ok c ∧ ∀ later,
              definition (Session.after
                (steps ++ .registerComposed now id metadata :: later)).database id =
                  .ok (some (.composed c))) := by
  refine ⟨Codec.read_write_series, fun info => ?_, fun method => ?_, fun o ho => ?_,
    fun result hrows => ?_,
    fun steps now id => ⟨fun hfree series => ?_, fun metadata info => ⟨?_, ?_⟩⟩⟩
  · exact (Codec.seriesInfo_roundTrips info).read_write (by decide)
  · exact (Codec.method_roundTrips method).read_write (by decide)
  · exact (Codec.observation_roundTrips ho).read_write (by decide)
  · exact (Codec.resultSet_roundTrips hrows).read_write (by decide)
  · obtain ⟨registrations, names, h⟩ := Session.exists_holds_after steps
    obtain ⟨db', hrun, hfound, hopened⟩ := h.exists_insertDefinition hfree now series
    exact ⟨db', hrun, hfound, hopened.symm ▸ hfound⟩
  · intro hok
    obtain ⟨b, hb, hlater⟩ := Session.exists_binding_after hok
    refine ⟨b, hb, fun later => ?_⟩
    rw [Session.definition_after, hlater]
  · intro hok
    obtain ⟨c, hc, hlater⟩ := Session.exists_composition_after hok
    refine ⟨c, hc, fun later => ?_⟩
    rw [Session.definition_after, hlater]

/-- An identifier with a quote, a backslash, control characters and one of a higher plane. -/
def oddId : SeriesId := "\"\\\n\x00é😀"

/-- A composition of an oddly named series, with the least of all weights, and a meal that is
registered before the store is opened again. -/
theorem Store.definition_read_back_odd :
    let composition : Composition := ⟨[⟨oddId, Int64.minValue⟩, ⟨"bread", 3⟩], -1⟩
    let results : ResultSet :=
      ⟨[oddId], [⟨⟨2024, 2, 29, by decide⟩, -5⟩, ⟨⟨0, 1, 1, by decide⟩, 0⟩]⟩
    let steps : List StoreStep := [.createTable "food"]
    let db := (Session.after steps).database
    let metadata : Metadata := .ofList [("a_id", oddId), ("a_weight", "3")]
    Codec.series.read (Codec.series.write (.composed composition)) = .ok (.composed composition) ∧
      (∀ o ∈ results.rows, o.date.IsFourDigit) ∧
      Codec.resultSet.read (Codec.resultSet.write results) = .ok results ∧
      definition db oddId = .ok none ∧
      (∃ db', (insertDefinition Clock.start.now oddId (.composed composition)).run db =
          (.ok ⟨oddId, .composed⟩, db') ∧
        definition (opened db') oddId = .ok (some (.composed composition))) ∧
      ((registerComposed Clock.start.now "meal" metadata).run db).1 = .ok ⟨"meal", .composed⟩ ∧
      definition (Session.after (steps ++ .registerComposed Clock.start.now "meal" metadata ::
        [.reopen])).database "meal" = .ok (some (.composed ⟨[⟨oddId, 3⟩], 3⟩)) := by
  intro composition results steps db metadata
  have hdates : ∀ o ∈ results.rows, o.date.IsFourDigit := by decide
  obtain ⟨hfree, hok⟩ : definition db oddId = .ok none ∧
      ((registerComposed Clock.start.now "meal" metadata).run db).1 =
        .ok ⟨"meal", .composed⟩ := by
    decide
  have hmetadata : Composition.ofMetadata metadata = .ok ⟨[⟨oddId, 3⟩], 3⟩ := by decide
  obtain ⟨hseries, -, -, -, hresults, hstore⟩ := Store.definition_read_back
  obtain ⟨hinsert, -⟩ := hstore steps Clock.start.now oddId
  obtain ⟨db', hrun, -, hopened⟩ := hinsert hfree (.composed composition)
  obtain ⟨-, hregister⟩ := hstore steps Clock.start.now "meal"
  obtain ⟨c, hc, hlater⟩ := (hregister metadata _).2 hok
  obtain rfl : ⟨[⟨oddId, 3⟩], 3⟩ = c := Except.ok.inj (hmetadata.symm.trans hc)
  exact ⟨hseries _, hdates, hresults results hdates, hfree, ⟨db', hrun, hopened⟩, hok,
    hlater [.reopen]⟩

end TimeSeries
