import TimeSeries.Proofs.AsOf

/-!
Rows that supersede one another. Of the rows recorded for one date the last created one stays, of
several created at one moment the last listed one, and what stays is listed date by date. Rows that
are all told apart by date and moment may come in any order.
-/
namespace TimeSeries.Primitive

open Recorded (chronology)

/-- The last listed of those rows of its date that were created last. -/
def Prevails (rows : List Recorded) (row : Recorded) : Prop :=
  ∃ before after, rows = before ++ row :: after ∧
    (∀ r ∈ before, r.date = row.date → r.createdAt ≤ row.createdAt) ∧
    ∀ r ∈ after, r.date = row.date → r.createdAt < row.createdAt

theorem pick?_exact_iff_prevails {rows : List Recorded} {day : Date} {row : Recorded} :
    chronology.pick? rows (.exact day) = some row ↔ row.date = day ∧ Prevails rows row := by
  have hle (r : Recorded) (hr : r.date = row.date) :
      chronology.order (.exact day) r row = true ↔ r.createdAt ≤ row.createdAt := by
    rw [order_iff_of_date_eq hr, String.not_lt]
  have hlt (r : Recorded) (hr : r.date = row.date) :
      chronology.order (.exact day) row r = false ↔ r.createdAt < row.createdAt := by
    rw [← Bool.not_eq_true, order_iff_of_date_eq hr.symm, not_not]
  rw [Chronology.pick?, Greatest.last?_filter_eq_some_iff (Chronology.order_trans _)
    (Chronology.order_total _)]
  simp only [Chronology.covers_exact, Recorded.date_chronology]
  constructor
  · rintro ⟨before, after, hrows, rfl, hbefore, hafter⟩
    exact ⟨rfl, before, after, hrows, fun r hr hdate => (hle r hdate).1 (hbefore r hr hdate),
      fun r hr hdate => (hlt r hdate).1 (hafter r hr hdate)⟩
  · rintro ⟨rfl, before, after, hrows, hbefore, hafter⟩
    exact ⟨before, after, hrows, rfl, fun r hr hdate => (hle r hdate).2 (hbefore r hr hdate),
      fun r hr hdate => (hlt r hdate).2 (hafter r hr hdate)⟩

theorem mem_latestPerDate_iff_prevails {rows : List Recorded} {o : Observation} :
    o ∈ latestPerDate rows ↔ ∃ row, Prevails rows row ∧ row.toObservation = o := by
  simp only [mem_latestPerDate, pick?_exact_iff_prevails]
  constructor
  · rintro ⟨row, ⟨-, hrow⟩, heq⟩
    exact ⟨row, hrow, heq⟩
  · rintro ⟨row, hrow, rfl⟩
    exact ⟨row, ⟨rfl, hrow⟩, rfl⟩

/-- Every row is superseded on its date by one that prevails, if it does not prevail itself. -/
theorem exists_prevails {rows : List Recorded} {r : Recorded} (h : r ∈ rows) :
    ∃ row, Prevails rows row ∧ row.date = r.date := by
  have hcovers : chronology.covers (.exact r.date) r = true := by simp
  obtain ⟨row, hrow⟩ := Chronology.exists_pick? h hcovers
  obtain ⟨hdate, hprevails⟩ := pick?_exact_iff_prevails.1 hrow
  exact ⟨row, hprevails, hdate⟩

theorem Prevails.mem {rows : List Recorded} {row : Recorded} (h : Prevails rows row) :
    row ∈ rows := by
  obtain ⟨before, after, rfl, -⟩ := h
  simp

theorem exists_mem_latestPerDate_iff {rows : List Recorded} {day : Date} :
    (∃ o ∈ latestPerDate rows, o.date = day) ↔ ∃ row ∈ rows, row.date = day := by
  constructor
  · rintro ⟨o, ho, rfl⟩
    obtain ⟨row, hrow, rfl⟩ := mem_latestPerDate_iff_prevails.1 ho
    exact ⟨row, hrow.mem, rfl⟩
  · rintro ⟨r, hr, rfl⟩
    obtain ⟨row, hrow, hdate⟩ := exists_prevails hr
    exact ⟨row.toObservation, mem_latestPerDate_iff_prevails.2 ⟨row, hrow, rfl⟩, hdate⟩

/-- Rows come down to one observation per date. -/
theorem latestPerDate_prevails :
    (∀ rows found, latestPerDate rows = found ↔ found.Pairwise (·.date < ·.date) ∧
      ∀ o, o ∈ found ↔ ∃ row, Prevails rows row ∧ row.toObservation = o) ∧
    (∀ rows day, (∃ o ∈ latestPerDate rows, o.date = day) ↔ ∃ row ∈ rows, row.date = day) ∧
    ∀ rows rows', (rows.Pairwise fun a b => ¬ (a.date = b.date ∧ a.createdAt = b.createdAt)) →
      rows'.Perm rows → latestPerDate rows' = latestPerDate rows := by
  refine ⟨fun rows found => ?_, fun _ _ => exists_mem_latestPerDate_iff, fun rows rows' h hp => ?_⟩
  · constructor
    · rintro rfl
      exact ⟨latestPerDate_ascending rows, fun _ => mem_latestPerDate_iff_prevails⟩
    · rintro ⟨hasc, hmem⟩
      apply Align.eq_of_ascending (latestPerDate_ascending rows) hasc
      intro o
      rw [mem_latestPerDate_iff_prevails, hmem]
  · exact (latestPerDate_perm (h.imp fun hab hties => hab (Recorded.ties_iff.1 hties)) hp.symm).symm

/-- The corrected row of a day comes first or last, and of two rows of one moment the last listed
stays. -/
theorem latestPerDate_prevails_corrected :
    let tied : List Recorded := [⟨⟨⟨2024, 2, 4, by decide⟩, 5⟩, "2024-02-05T09"⟩,
      ⟨⟨⟨2024, 2, 1, by decide⟩, 1⟩, "2024-02-09T09"⟩,
      ⟨⟨⟨2024, 2, 4, by decide⟩, 6⟩, "2024-02-05T09"⟩,
      ⟨⟨⟨2024, 2, 4, by decide⟩, 7⟩, "2024-02-04T09"⟩]
    let found : List Observation := [⟨⟨2024, 2, 1, by decide⟩, 0⟩, ⟨⟨2024, 2, 4, by decide⟩, -3⟩,
      ⟨⟨2024, 2, 9, by decide⟩, 7⟩]
    (∃ row, Prevails tied row ∧ row.toObservation = ⟨⟨2024, 2, 4, by decide⟩, 6⟩) ∧
      (correctedRows.Pairwise fun a b => ¬ (a.date = b.date ∧ a.createdAt = b.createdAt)) ∧
      correctedRows.reverse.Perm correctedRows ∧ latestPerDate correctedRows = found ∧
      latestPerDate correctedRows.reverse = found := by
  intro tied found
  have hdistinct : correctedRows.Pairwise fun a b =>
      ¬ (a.date = b.date ∧ a.createdAt = b.createdAt) := by
    decide
  have hperm : correctedRows.reverse.Perm correctedRows := correctedRows.reverse_perm
  have htied : latestPerDate tied =
      [⟨⟨2024, 2, 1, by decide⟩, 1⟩, ⟨⟨2024, 2, 4, by decide⟩, 6⟩] := by
    decide
  have hfound : latestPerDate correctedRows = found := by decide
  obtain ⟨hall, -, hpermuted⟩ := latestPerDate_prevails
  refine ⟨(((hall _ _).1 htied).2 _).1 (by simp), hdistinct, hperm, hfound, ?_⟩
  rw [hpermuted _ _ hdistinct hperm, hfound]

end TimeSeries.Primitive
