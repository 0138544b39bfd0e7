import TimeSeries.Proofs.Refinement
import TimeSeries.Proofs.SelectionOrder

/-!
The later recording wins. The value of a day is that of the latest date up to it, and of several
recordings for this date that of the latest moment, in whatever order they were made. Stamps tell
moments apart that lie in different microseconds, if the later one is in the years 0 to 9999.
-/
namespace TimeSeries

open Text (sameName)
open Store

theorem Instant.notAfter_refl (t : Instant) : notAfter t t = true := by
  simpa using notAfter_total t t

namespace Posting

/-- Of two postings for one date, the stamp of the later moment is the greater one. -/
def ToldApart (p q : Posting) : Prop :=
  p.observation.date = q.observation.date →
    p.moment.Precedes q.moment ∧ q.moment.date.IsFourDigit ∨
      q.moment.Precedes p.moment ∧ p.moment.date.IsFourDigit

instance (p q : Posting) : Decidable (p.ToldApart q) := inferInstanceAs (Decidable (_ → _))

variable {p q : Posting} {postings : List Posting}

theorem ToldApart.symm (h : p.ToldApart q) : q.ToldApart p := fun hdate => (h hdate.symm).symm

theorem ToldApart.stamp_ne (h : p.ToldApart q) (hdate : p.observation.date = q.observation.date) :
    p.moment.stamp ≠ q.moment.stamp := by
  intro heq
  rcases h hdate with ⟨hprecedes, hyear⟩ | ⟨hprecedes, hyear⟩
  · exact String.lt_irrefl _ (heq ▸ Instant.stamp_lt_stamp_of_precedes hyear hprecedes)
  · exact String.lt_irrefl _ (heq ▸ Instant.stamp_lt_stamp_of_precedes hyear hprecedes)

/-- The order of the stamps is that of the moments. -/
theorem ToldApart.notAfter_of_stamp_le (h : p.ToldApart q)
    (hdate : p.observation.date = q.observation.date) (hle : p.moment.stamp ≤ q.moment.stamp) :
    p.moment.notAfter q.moment = true := by
  rcases h hdate with ⟨hprecedes, -⟩ | ⟨hprecedes, hyear⟩
  · exact hprecedes.1
  · have hlt := Instant.stamp_lt_stamp_of_precedes hyear hprecedes
    exact absurd hle (String.not_le.2 hlt)

theorem distinct_of_toldApart (h : postings.Pairwise ToldApart) :
    Recorded.chronology.Distinct (postings.map recorded) := by
  rw [Chronology.Distinct, List.pairwise_map]
  apply h.imp
  intro p q hapart hties
  obtain ⟨hdate, hstamp⟩ := Recorded.ties_iff.1 hties
  exact hapart.stamp_ne hdate hstamp

/-- The posting that counts on a day: of those dated up to it none is later dated, and none for the
same date has a later moment. -/
def CountsOn (postings : List Posting) (day : Date) (p : Posting) : Prop :=
  p ∈ postings ∧ p.observation.date ≤ day ∧ ∀ q ∈ postings, q.observation.date ≤ day →
    q.observation.date < p.observation.date ∨
      q.observation.date = p.observation.date ∧ q.moment.notAfter p.moment = true

/-- The value of the stored samples on a day is that of the posting that counts. -/
theorem exists_countsOn_of_valueOn? (h : postings.Pairwise ToldApart) {day : Date} {v : Value}
    (hv : Primitive.valueOn? (postings.map recorded) day = some v) :
    ∃ p, CountsOn postings day p ∧ p.observation.value = v := by
  have hdistinct := distinct_of_toldApart h
  obtain ⟨row, hrow, rfl⟩ := Option.map_eq_some_iff.1 hv
  obtain ⟨⟨hmem, hday⟩, hbest⟩ := (Primitive.pick?_upTo_eq_some_iff hdistinct).1 hrow
  obtain ⟨p, hp, rfl⟩ := List.mem_map.1 hmem
  refine ⟨p, ⟨hp, hday, fun q hq hqday => ?_⟩, rfl⟩
  rcases hbest _ (List.mem_map_of_mem hq) hqday with hlt | ⟨hdate, hstamp⟩
  · exact .inl hlt
  · refine .inr ⟨hdate, ?_⟩
    by_cases hqp : q = p
    · subst hqp
      exact Instant.notAfter_refl _
    · have hsymm : Std.Symm ToldApart := ⟨fun _ _ => ToldApart.symm⟩
      exact (h.forall hq hp hqp).notAfter_of_stamp_le hdate hstamp

theorem valueOn?_eq_none {day : Date}
    (hv : Primitive.valueOn? (postings.map recorded) day = none) :
    ∀ p ∈ postings, ¬ p.observation.date ≤ day := by
  intro p hp hday
  have hnone := Chronology.pick?_eq_none_iff.1 (Option.map_eq_none_iff.1 hv) p.recorded
    (List.mem_map_of_mem hp)
  have hcovers : Recorded.chronology.covers (.onOrBefore day) p.recorded = true :=
    Chronology.covers_onOrBefore.2 hday
  rw [hcovers] at hnone
  cases hnone

end Posting

namespace Session

variable {s s' : Session} {id : SeriesId} {b : Binding}

/-- The samples in the table of a binding can be read through it and told apart. -/
structure IsReadable (s : Session) (b : Binding) : Prop where
  sameColumns : ∀ p ∈ s.recordedIn b.table, p.SameColumns b
  isFourDigit : ∀ p ∈ s.recordedIn b.table, p.observation.date.IsFourDigit
  toldApart : (s.recordedIn b.table).Pairwise Posting.ToldApart

theorem IsReadable.perm (h : s.IsReadable b)
    (hp : (s.recordedIn b.table).Perm (s'.recordedIn b.table)) : s'.IsReadable b where
  sameColumns p hmem := h.sameColumns p (hp.mem_iff.2 hmem)
  isFourDigit p hmem := h.isFourDigit p (hp.mem_iff.2 hmem)
  toldApart := hp.pairwise h.toldApart fun hapart => hapart.symm

section Readable
variable [Scan] {registrations : List Registration} {names : List String}
  (h : s.Holds registrations names) (hdiffer : s.ColumnsDiffer)
  (hb : s.registry.find? id = some (.primitive b)) (hread : s.IsReadable b)
include h hdiffer hb hread

/-- The value of a day, as a function of the samples in the table. -/
theorem IsReadable.call_on {day : Date} (hday : day.year ≤ 9999) :
    Store.call s.database id .value (.on day) = Primitive.nonempty
      ((Primitive.valueOn? ((s.recordedIn b.table).map Posting.recorded) day).toList.map
        (⟨day, ·⟩)) := by
  have hdistinct := Posting.distinct_of_toldApart hread.toldApart
  have hanswers : Answers
      (Source.ofTables fun _ => (s.recordedIn b.table).map Posting.recorded) b
      ((s.recordedIn b.table).map Posting.recorded) := by
    apply Source.answers_ofTables
    exact hdistinct.imp fun hnot hsame => hnot (Recorded.ties_iff.2 hsame)
  rw [h.call_eq hb, Primitive.outcome_call_eq_of_lookups _ hanswers]
  · exact Primitive.outcome_value_on hanswers day
  · intro lookup hlookup
    apply h.exists_documented hdiffer hb hread.sameColumns hread.isFourDigit
    intro d hd
    have hmem : d ∈ (Query.on day).dates := Query.mem_dates hlookup hd
    rw [List.mem_singleton.1 hmem]
    exact hday

/-- Tables that hold the same samples in some order answer every call alike. -/
theorem IsReadable.call_eq_of_perm {registrations' : List Registration} {names' : List String}
    (h' : s'.Holds registrations' names')
    (hdiffer' : s'.ColumnsDiffer) (hb' : s'.registry.find? id = some (.primitive b))
    (hp : (s.recordedIn b.table).Perm (s'.recordedIn b.table)) (method : Method) (query : Query) :
    Store.call s'.database id method query = Store.call s.database id method query := by
  obtain ⟨v, hv, hcolumns, hsamples⟩ := h.exists_view hdiffer hb hread.sameColumns
  obtain ⟨v', hv', hcolumns', hsamples'⟩ :=
    h'.exists_view hdiffer' hb' (hread.perm hp).sameColumns
  have hlookup (lookup : Lookup) : s'.database.source b lookup = s.database.source b lookup := by
    obtain ⟨entries, hentries, hselect⟩ := Database.exists_select_of_view? hv lookup
    obtain ⟨entries', hentries', hselect'⟩ := Database.exists_select_of_view? hv' lookup
    rw [hsamples] at hentries
    rw [hsamples'] at hentries'
    have hperm : entries.Perm entries' :=
      hentries.trans (((hp.map Posting.recorded).map Entry.ofRecorded).trans hentries'.symm)
    rw [Database.source, Database.source, hselect, hselect', hcolumns, hcolumns',
      Entry.select_perm (Posting.isFourDigit_recorded hread.isFourDigit)
        (Posting.distinct_of_toldApart hread.toldApart) hentries hperm rfl]
  rw [h.call_eq hb, h'.call_eq hb', Primitive.call_congr fun lookup _ => hlookup lookup]

end Readable

/-- Recordings in another order are the same samples in another order. -/
theorem recordedIn_recordings_perm (setup : List StoreStep) (id : SeriesId) (table : String)
    {records records' : List (Observation × Instant)} (hp : records.Perm records') :
    ((after (setup ++ recordings id records)).recordedIn table).Perm
      ((after (setup ++ recordings id records')).recordedIn table) := by
  rw [recordedIn, recordedIn, (after_recordings setup id records).2,
    (after_recordings setup id records').2]
  exact ((hp.flatMap_right _).append_left _).filter _

end Session

/-- The value of a day up to the year 9999 is that of the posting that counts on it, if there is one,
and any other order of the recordings gives the same answers to all calls. The samples in the table
are dated in the years 0 to 9999, and of two for one date the later moment is in these years too and
in a microsecond of its own. -/
theorem Store.call_after_recordings [Scan] {setup : List StoreStep} {id : SeriesId} {b : Binding}
    (hid : (Session.after setup).registry.find? id = some (.primitive b))
    {records : List (Observation × Instant)}
    (hread : (Session.after (setup ++ Session.recordings id records)).IsReadable b) :
    let s := Session.after (setup ++ Session.recordings id records)
    (∀ day : Date, day.year ≤ 9999 →
      (∃ p, Posting.CountsOn (s.recordedIn b.table) day p ∧
          call s.database id .value (.on day) = .ok [⟨day, p.observation.value⟩]) ∨
        (∀ p ∈ s.recordedIn b.table, ¬ p.observation.date ≤ day) ∧
          call s.database id .value (.on day) = .error .noDataFound) ∧
      ∀ records', records.Perm records' → ∀ method query,
        call (Session.after (setup ++ Session.recordings id records')).database id method query =
          call s.database id method query := by
  intro s
  have hregistered (records : List (Observation × Instant)) :
      (Session.after (setup ++ Session.recordings id records)).registry.find? id =
        some (.primitive b) := by
    rw [(Session.after_recordings setup id records).1]
    exact hid
  obtain ⟨registrations, names, h⟩ :=
    Session.exists_holds_after (setup ++ Session.recordings id records)
  have hdiffer := Session.columnsDiffer_after (setup ++ Session.recordings id records)
  refine ⟨fun day hday => ?_, fun records' hp method query => ?_⟩
  · have hcall := hread.call_on h hdiffer (hregistered records) hday
    cases hv : Primitive.valueOn? ((s.recordedIn b.table).map Posting.recorded) day with
    | none =>
      rw [hv] at hcall
      exact .inr ⟨Posting.valueOn?_eq_none hv, hcall⟩
    | some v =>
      obtain ⟨p, hcounts, rfl⟩ := Posting.exists_countsOn_of_valueOn? hread.toldApart hv
      rw [hv] at hcall
      exact .inl ⟨p, hcounts, hcall⟩
  · obtain ⟨registrations', names', h'⟩ :=
      Session.exists_holds_after (setup ++ Session.recordings id records')
    exact hread.call_eq_of_perm h hdiffer (hregistered records) h'
      (Session.columnsDiffer_after _) (hregistered records')
      (Session.recordedIn_recordings_perm setup id b.table hp) method query

/-- Bread, on a table in other letters. -/
def breadRegistered : List StoreStep :=
  [.createTable "food",
    .registerPrimitive (noon 12 (by decide)) "bread" (.ofList [("table_name", "FOOD")])]

/-- The 13th of March is corrected before the recording that this corrects is made; the 15th is
recorded last at a moment before the year 0. -/
def loaves : List (Observation × Instant) :=
  [(⟨⟨2024, 3, 13, by decide⟩, 1600⟩, noon 14 (by decide)),
    (⟨⟨2024, 3, 13, by decide⟩, 1200⟩, noon 13 (by decide)),
    (⟨⟨2024, 3, 15, by decide⟩, 2000⟩, noon 15 (by decide)),
    (⟨⟨2024, 3, 15, by decide⟩, 1900⟩,
      ⟨⟨-1, 12, 31, by decide⟩, 3600, 1, by decide, by decide⟩)]

theorem Store.call_after_recordings_loaves :
    let b := Binding.standard "FOOD"
    let s := Session.after (breadRegistered ++ Session.recordings "bread" loaves)
    (Session.after breadRegistered).registry.find? "bread" = some (.primitive b) ∧
      s.IsReadable b ∧
      call s.database "bread" .value (.on ⟨2024, 3, 14, by decide⟩) =
        .ok [⟨⟨2024, 3, 14, by decide⟩, 1600⟩] ∧
      (∀ day : Date, day.year ≤ 9999 →
        (∃ p, Posting.CountsOn (s.recordedIn b.table) day p ∧
            call s.database "bread" .value (.on day) = .ok [⟨day, p.observation.value⟩]) ∨
          (∀ p ∈ s.recordedIn b.table, ¬ p.observation.date ≤ day) ∧
            call s.database "bread" .value (.on day) = .error .noDataFound) ∧
      ∀ records', loaves.Perm records' → ∀ method query,
        call (Session.after (breadRegistered ++ Session.recordings "bread" records')).database
          "bread" method query = call s.database "bread" method query := by
  intro b s
  have hid : (Session.after breadRegistered).registry.find? "bread" = some (.primitive b) := by
    decide +kernel
  -- One evaluation of the run serves all.
  have hrun : ((∀ p ∈ s.recordedIn b.table, p.SameColumns b) ∧
      (∀ p ∈ s.recordedIn b.table, p.observation.date.IsFourDigit) ∧
      (s.recordedIn b.table).Pairwise Posting.ToldApart) ∧
      call s.database "bread" .value (.on ⟨2024, 3, 14, by decide⟩) =
        .ok [⟨⟨2024, 3, 14, by decide⟩, 1600⟩] := by
    decide +kernel
  obtain ⟨⟨hcolumns, hdates, hapart⟩, hcall⟩ := hrun
  have hread : s.IsReadable b := ⟨hcolumns, hdates, hapart⟩
  exact ⟨hid, hread, hcall, Store.call_after_recordings hid hread⟩

/-- Two moments of one microsecond have one stamp, and then the recording made last counts. The stamp
of a moment after the year 9999 is the smallest of all, and so is the text of such a day, on which
nothing is found. -/
theorem Store.later_recording_loses :
    let moment (date : Date) (nano : Nat) (h : nano < 1000000000) : Instant :=
      ⟨date, 0, nano, by decide, .inl h⟩
    let day : Date := ⟨2024, 1, 1, by decide⟩
    let later := moment day 1500 (by decide)
    let earlier := moment day 1000 (by decide)
    let late := moment ⟨10000, 1, 1, by decide⟩ 0 (by decide)
    let answer (records : List (Observation × Instant)) (day : Date) :=
      call (Session.after (breadRegistered ++ Session.recordings "bread" records)).database "bread"
        .value (.on day)
    (earlier.notAfter later = true ∧ earlier ≠ later ∧
        answer [(⟨day, 5⟩, later), (⟨day, 6⟩, earlier)] day = .ok [⟨day, 6⟩] ∧
        answer [(⟨day, 6⟩, earlier), (⟨day, 5⟩, later)] day = .ok [⟨day, 5⟩]) ∧
      (earlier.notAfter late = true ∧ earlier ≠ late ∧
        answer [(⟨day, 5⟩, late), (⟨day, 6⟩, earlier)] day = .ok [⟨day, 6⟩]) ∧
      answer [(⟨day, 5⟩, later)] ⟨10000, 1, 1, by decide⟩ = .error .noDataFound := by
  decide +kernel

end TimeSeries
