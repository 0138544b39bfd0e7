import TimeSeries.Proofs.Cycles
import TimeSeries.Proofs.QueryTexts

/-!
What an answer looks like, whatever the tables hold: it is never empty and lists its rows by date,
a single point is a single row, and a range stays within its days. Rows that were recorded at one
moment may be told apart in any way by the source, for each lookup anew.
-/
namespace TimeSeries

/-- Whatever the source answers to a lookup of the binding is as documented for the table. A lookup
may also fail, and the table may hold rows between which a lookup cannot choose. -/
def Source.AnswersFrom (source : Source) (binding : Binding) (rows : List Recorded) : Prop :=
  ∀ lookup found, source binding lookup = .ok found →
    Recorded.chronology.Documented rows lookup found

/-- The days and the number of rows that a resolution allows. -/
def Resolution.Shows : Resolution → List Observation → Prop
  | .base, rows => rows.length = 1
  | .latest, rows => rows.length = 1
  | .exact day, rows => ∃ v, rows = [⟨day, v⟩]
  | .range first last, rows => ∀ o ∈ rows, first ≤ o.date ∧ (first ≤ last → o.date ≤ last)

/-- The shape of the rows that answer a query. -/
structure Resolution.Shape (resolution : Resolution) (rows : List Observation) : Prop where
  nonempty : rows ≠ []
  ascending : rows.Pairwise (·.date < ·.date)
  shows : resolution.Shows rows

/-- The failure, constituents aside, is that of several rows in place of one. -/
def Error.IsMiscount (e : Error) : Prop := ∃ what got, e.innermost = .expectedExactlyOne what got

/-- An answer of the right shape, or a failure other than a wrong number of rows. -/
structure Resolution.Allows (resolution : Resolution) (answer : Except Error (List Observation)) :
    Prop where
  shape : ∀ rows, answer = .ok rows → resolution.Shape rows
  not_miscount : ∀ e, answer = .error e → ¬ e.IsMiscount

namespace Resolution

variable {resolution : Resolution} {rows : List Observation}

theorem allows_ok (h : resolution.Shape rows) : resolution.Allows (.ok rows) :=
  ⟨by rintro _ ⟨⟩; exact h, nofun⟩

theorem allows_error {e : Error} (h : ¬ e.IsMiscount) : resolution.Allows (.error e) :=
  ⟨nofun, by rintro _ ⟨⟩; exact h⟩

theorem Allows.mapError {answer : Except Error (List Observation)} (h : resolution.Allows answer)
    (id : SeriesId) : resolution.Allows (answer.mapError (.constituent id)) := by
  cases answer with
  | ok rows => exact allows_ok (h.shape rows rfl)
  | error e => exact allows_error (h.not_miscount e rfl)

/-- Whether a resolution allows rows depends on their dates alone. -/
theorem Shape.congr {rows' : List Observation} (h : resolution.Shape rows)
    (hdates : rows.map (·.date) = rows'.map (·.date)) : resolution.Shape rows' := by
  have hlength : rows.length = rows'.length := by simpa using congrArg List.length hdates
  refine ⟨?_, ?_, ?_⟩
  · rintro rfl
    exact h.nonempty (List.length_eq_zero_iff.1 hlength)
  · apply List.pairwise_map.1
    rw [← hdates]
    exact List.pairwise_map.2 h.ascending
  · have hshows := h.shows
    cases resolution with
    | base => exact hlength.symm.trans hshows
    | latest => exact hlength.symm.trans hshows
    | exact day =>
      obtain ⟨v, rfl⟩ := hshows
      obtain ⟨⟨date, w⟩, rfl⟩ := List.length_eq_one_iff.1 hlength.symm
      obtain rfl : day = date := by simpa using hdates
      exact ⟨w, rfl⟩
    | range first last =>
      intro o ho
      have hmem : o.date ∈ rows.map (·.date) := hdates ▸ List.mem_map_of_mem ho
      obtain ⟨p, hp, hdate⟩ := List.mem_map.1 hmem
      exact hdate ▸ hshows p hp

end Resolution

/-- A query without an end of a range asks for a single row. -/
theorem Resolution.Shape.length_eq_one {query : Query} {rows : List Observation}
    (h : query.resolution.Shape rows) (hpoint : query.isSinglePoint = true) : rows.length = 1 := by
  obtain ⟨date, dateTo⟩ := query
  obtain rfl : dateTo = none := by simpa [Query.isSinglePoint] using hpoint
  have hshows := h.shows
  cases date with
  | earliest => exact hshows
  | latest => exact hshows
  | on day =>
    obtain ⟨v, rfl⟩ := hshows
    rfl

/-! ## Primitive series -/

namespace Primitive

variable {source : Source} {binding : Binding} {table : List Recorded}
  (h : source.AnswersFrom binding table)

theorem not_miscount_of_fetch {lookup : Lookup} {e : Error}
    (he : (fetch source binding lookup).outcome = .error e) : ¬ e.IsMiscount := by
  obtain ⟨detail, -, rfl⟩ := mapError_eq_error_iff.1 he
  rintro ⟨what, got, ⟨⟩⟩

theorem not_miscount_of_relativeTo {base : Value} {o : Observation} {e : Error}
    (he : relativeTo base o = .error e) : ¬ e.IsMiscount := by
  rw [relativeTo, bind_eq_error_iff] at he
  rcases he with he | ⟨v, -, he⟩
  · rw [fractionTowardZero] at he
    split at he
    · cases he
      rintro ⟨what, got, ⟨⟩⟩
    · obtain ⟨rfl, -⟩ := fitting_eq_error_iff.1 he
      rintro ⟨what, got, ⟨⟩⟩
  · cases he

include h

theorem documented_of_fetch {lookup : Lookup} {found : List Recorded}
    (hfound : (fetch source binding lookup).outcome = .ok found) :
    Recorded.chronology.Documented table lookup found :=
  h lookup found (mapError_eq_ok_iff.1 hfound)

/-- A lookup of one row finds no second one. -/
theorem fetch_cases {lookup : Lookup} (hone : ∀ first last, lookup ≠ .range first last)
    {found : List Recorded} (hfound : (fetch source binding lookup).outcome = .ok found) :
    found = [] ∨ ∃ row, found = [row] ∧ Recorded.chronology.covers lookup row = true := by
  have hdoc := documented_of_fetch h hfound
  have hpick : Chronology.IsPick (Recorded.chronology.covers lookup)
      (Recorded.chronology.order lookup) table found := by
    cases lookup with
    | range first last => exact absurd rfl (hone first last)
    | _ => exact hdoc
  rcases hpick with ⟨rfl, -⟩ | ⟨row, -, rfl, hcovers, -⟩
  · exact .inl rfl
  · exact .inr ⟨row, rfl, hcovers⟩

/-- So the number of rows is never the failure. -/
theorem outcome_single_eq_fetch {lookup : Lookup} (hone : ∀ first last, lookup ≠ .range first last)
    (what : String) : (single source binding lookup what).outcome =
      (fetch source binding lookup).outcome.map (List.map (·.toObservation)) := by
  rw [single, Traced.outcome_bind]
  cases hfound : (fetch source binding lookup).outcome with
  | error e => rfl
  | ok found =>
    rcases fetch_cases h hone hfound with rfl | ⟨row, rfl, -⟩ <;> rfl

/-- The rows are kept, or a value is put in front of them that has the day for a date. -/
theorem backfill_cases (day : Date) (found : List Observation) :
    (∃ e, (backfill source binding day found).outcome = .error e ∧ ¬ e.IsMiscount) ∨
      (backfill source binding day found).outcome = .ok found ∨
      found.head?.map (·.date) ≠ some day ∧
        ∃ v, (backfill source binding day found).outcome = .ok (⟨day, v⟩ :: found) := by
  rw [backfill]
  split
  · exact .inr (.inl rfl)
  · next hhead =>
    rw [Traced.outcome_bind, outcome_single_eq_fetch h (by simp)]
    cases hbefore : (fetch source binding (.onOrBefore day)).outcome with
    | error e => exact .inl ⟨e, rfl, not_miscount_of_fetch hbefore⟩
    | ok before =>
      cases before with
      | nil => exact .inr (.inl rfl)
      | cons row rest => exact .inr (.inr ⟨hhead, row.value, rfl⟩)

omit h in
theorem nonempty_allows {resolution : Resolution} {found : List Observation}
    (hfound : found ≠ [] → resolution.Shape found) : resolution.Allows (nonempty found) := by
  cases found with
  | nil => exact Resolution.allows_error (by rintro ⟨what, got, ⟨⟩⟩)
  | cons o found => exact Resolution.allows_ok (hfound (by simp))

theorem single_allows {resolution : Resolution} {lookup : Lookup}
    (hone : ∀ first last, lookup ≠ .range first last) (what : String)
    (hshows : ∀ o, resolution.Shows [o]) : resolution.Allows
      (single source binding lookup what >>= fun found => liftM (nonempty found)).outcome := by
  rw [Traced.outcome_bind, outcome_single_eq_fetch h hone]
  cases hfound : (fetch source binding lookup).outcome with
  | error e => exact Resolution.allows_error (not_miscount_of_fetch hfound)
  | ok found =>
    apply nonempty_allows
    intro hne
    rcases fetch_cases h hone hfound with rfl | ⟨row, rfl, -⟩
    · exact absurd rfl hne
    · exact ⟨hne, List.pairwise_singleton _ _, hshows _⟩

theorem backfill_allows {resolution : Resolution} {day : Date} {found : List Observation}
    (hfound : found ≠ [] → resolution.Shape found)
    (hcarried : found.head?.map (·.date) ≠ some day → ∀ v, resolution.Shape (⟨day, v⟩ :: found)) :
    resolution.Allows
      (backfill source binding day found >>= fun found => liftM (nonempty found)).outcome := by
  rw [Traced.outcome_bind]
  rcases backfill_cases h day found with ⟨e, he, hnot⟩ | hkept | ⟨hhead, v, hv⟩
  · rw [he]
    exact Resolution.allows_error hnot
  · rw [hkept]
    exact nonempty_allows hfound
  · rw [hv]
    exact nonempty_allows fun _ => hcarried hhead v

/-- The latest of the rows of a range, or the value carried to its first day and they. -/
theorem range_shape {first last : Date} {found : List Recorded}
    (hfound : (fetch source binding (.range first last)).outcome = .ok found) :
    (latestPerDate found ≠ [] → (Resolution.range first last).Shape (latestPerDate found)) ∧
      ((latestPerDate found).head?.map (·.date) ≠ some first →
        ∀ v, (Resolution.range first last).Shape (⟨first, v⟩ :: latestPerDate found)) := by
  have hperm : found.Perm (table.filter (Recorded.chronology.covers (.range first last))) :=
    documented_of_fetch h hfound
  have hasc := latestPerDate_ascending found
  have hdates (o : Observation) (ho : o ∈ latestPerDate found) :
      first ≤ o.date ∧ o.date ≤ last := by
    obtain ⟨row, hrow, rfl⟩ := exists_row_of_mem_latestPerDate ho
    simpa using (List.mem_filter.1 (hperm.mem_iff.1 hrow)).2
  constructor
  · intro hne
    exact ⟨hne, hasc, fun o ho => ⟨(hdates o ho).1, fun _ => (hdates o ho).2⟩⟩
  · intro hhead v
    refine ⟨by simp, List.pairwise_cons.2 ⟨?_, hasc⟩, ?_⟩
    · intro o ho
      exact first_lt_of_head hasc (fun o ho => (hdates o ho).1) hhead ho
    · intro o ho
      rcases List.mem_cons.1 ho with rfl | ho
      · exact ⟨Std.le_refl _, id⟩
      · exact ⟨(hdates o ho).1, fun _ => (hdates o ho).2⟩

theorem value_allows (query : Query) :
    query.resolution.Allows (value source binding query).outcome := by
  rw [value]
  cases query.resolution with
  | base => exact single_allows h (by simp) _ fun o => rfl
  | latest => exact single_allows h (by simp) _ fun o => rfl
  | exact day =>
    dsimp only
    rw [Traced.outcome_bind]
    cases hfound : (fetch source binding (.exact day)).outcome with
    | error e => exact Resolution.allows_error (not_miscount_of_fetch hfound)
    | ok found =>
      apply backfill_allows h
      · intro hne
        rcases fetch_cases h (by simp) hfound with rfl | ⟨row, rfl, hcovers⟩
        · exact absurd rfl hne
        · obtain rfl := Chronology.covers_exact.1 hcovers
          exact ⟨hne, List.pairwise_singleton _ _, row.value, rfl⟩
      · intro hhead v
        rcases fetch_cases h (by simp) hfound with rfl | ⟨row, rfl, hcovers⟩
        · exact ⟨by simp, List.pairwise_singleton _ _, v, rfl⟩
        · exact absurd (congrArg some (Chronology.covers_exact.1 hcovers)) hhead
  | range first last =>
    dsimp only
    rw [Traced.outcome_bind]
    cases hfound : (fetch source binding (.range first last)).outcome with
    | error e => exact Resolution.allows_error (not_miscount_of_fetch hfound)
    | ok found =>
      obtain ⟨hkept, hcarried⟩ := range_shape h hfound
      exact backfill_allows h hkept hcarried

/-- An index keeps the dates of the values, and has one base. -/
theorem index_allows (query : Query) :
    query.resolution.Allows (index source binding query).outcome := by
  have hbases := value_allows h .earliest
  have hcurrent := value_allows h query
  rw [outcome_index]
  cases hb : (value source binding .earliest).outcome with
  | error e => exact Resolution.allows_error (hbases.not_miscount e hb)
  | ok bases =>
    obtain ⟨base, rfl⟩ := List.length_eq_one_iff.1 (hbases.shape bases hb).shows
    rw [ok_bind]
    dsimp only
    cases hc : (value source binding query).outcome with
    | error e => exact Resolution.allows_error (hcurrent.not_miscount e hc)
    | ok current =>
      have hshape := hcurrent.shape current hc
      rw [ok_bind, if_neg fun hmany => hmany.2 (hshape.length_eq_one hmany.1)]
      cases hm : current.mapM (relativeTo base.value) with
      | ok rows =>
        apply Resolution.allows_ok
        apply hshape.congr
        apply map_eq_of_forall₂ (mapM_eq_ok_iff.1 hm)
        intro o p hop
        exact (relativeTo_eq_ok_iff.1 hop).1.symm
      | error e =>
        apply Resolution.allows_error
        obtain ⟨before, o, after, -, -, ho⟩ := mapM_eq_error_iff.1 hm
        exact not_miscount_of_relativeTo ho

theorem call_allows (method : Method) (query : Query) :
    query.resolution.Allows (call source binding method query).outcome := by
  cases method with
  | value => exact value_allows h query
  | index => exact index_allows h query

end Primitive

/-! ## Compositions -/

namespace Align

variable {series : List (List Observation)}

/-- The latest date of all is shown if no series is empty. -/
theorem exists_shown (hne : series ≠ []) (h : ∀ s ∈ series, s ≠ []) : ∃ d, Shown series d := by
  obtain ⟨s₀, hs₀⟩ := List.exists_mem_of_ne_nil series hne
  obtain ⟨o₀, ho₀⟩ := List.exists_mem_of_ne_nil s₀ (h s₀ hs₀)
  have hsome : Greatest.last? upTo series.flatten ≠ none := by
    rw [ne_eq, Greatest.last?_eq_none_iff]
    exact List.ne_nil_of_mem (List.mem_flatten.2 ⟨s₀, hs₀, ho₀⟩)
  obtain ⟨o, ho⟩ := Option.ne_none_iff_exists'.1 hsome
  obtain ⟨s, hs, hos⟩ := List.mem_flatten.1 (Greatest.mem_of_last? ho)
  refine ⟨o.date, ⟨s, hs, o, hos, rfl⟩, fun s hs => ?_⟩
  obtain ⟨p, hp⟩ := List.exists_mem_of_ne_nil s (h s hs)
  have hle := Greatest.le_of_last? upTo_trans upTo_total ho (List.mem_flatten.2 ⟨s, hs, hp⟩)
  exact ⟨p, hp, by simpa [upTo] using hle⟩

/-- Single rows are shown together, on the latest of their dates. -/
theorem le_of_shown (h : ∀ s ∈ series, s.length = 1) {d d' : Date} (hd : Shown series d)
    (hd' : Shown series d') : d ≤ d' := by
  obtain ⟨⟨s, hs, o, ho, rfl⟩, -⟩ := hd
  obtain ⟨p, hp, hle⟩ := hd'.2 s hs
  obtain ⟨q, rfl⟩ := List.length_eq_one_iff.1 (h s hs)
  rw [List.mem_singleton] at ho hp
  rwa [ho, ← hp]

end Align

theorem length_le_one_of_dates {rows : List Observation} (h : rows.Pairwise (·.date < ·.date))
    (hdates : ∀ o ∈ rows, ∀ p ∈ rows, o.date ≤ p.date) : rows.length ≤ 1 := by
  rcases rows with _ | ⟨o, _ | ⟨p, rows⟩⟩
  · simp
  · simp
  · have hlt : o.date < p.date := (List.pairwise_cons.1 h).1 p List.mem_cons_self
    exact absurd (hdates p (by simp) o (by simp)) (Std.not_le.2 hlt)

/-- Aligning keeps the shape: single rows collapse to one, and no date is new. -/
theorem IsTotal.shape {resolution : Resolution} {series : List (List Observation)}
    {summands : Date → List Int} {rows : List Observation}
    (h : IsTotal (Align.Shown series) summands rows) (hne : series ≠ [])
    (hshape : ∀ s ∈ series, resolution.Shape s) : resolution.Shape rows := by
  obtain ⟨d, hd⟩ := Align.exists_shown hne fun s hs => (hshape s hs).nonempty
  obtain ⟨o, ho, -⟩ := (h.mem_dates d).2 hd
  have hrows : rows ≠ [] := List.ne_nil_of_mem ho
  have hshown (o : Observation) (ho : o ∈ rows) : Align.Shown series o.date :=
    (h.mem_dates o.date).1 ⟨o, ho, rfl⟩
  have hone (hsingle : ∀ s ∈ series, s.length = 1) : rows.length = 1 := by
    have hle := length_le_one_of_dates h.ascending fun o ho p hp =>
      Align.le_of_shown hsingle (hshown o ho) (hshown p hp)
    have hpos := List.length_pos_iff.2 hrows
    omega
  refine ⟨hrows, h.ascending, ?_⟩
  cases resolution with
  | base => exact hone fun s hs => (hshape s hs).shows
  | latest => exact hone fun s hs => (hshape s hs).shows
  | exact day =>
    obtain ⟨⟨date, v⟩, hrow⟩ := List.length_eq_one_iff.1 <| hone fun s hs => by
      obtain ⟨v, rfl⟩ := (hshape s hs).shows
      rfl
    obtain ⟨⟨s, hs, p, hp, hdate⟩, -⟩ := hshown ⟨date, v⟩ (by simp [hrow])
    obtain ⟨w, rfl⟩ := (hshape s hs).shows
    obtain rfl := List.mem_singleton.1 hp
    obtain rfl : day = date := hdate
    exact ⟨v, hrow⟩
  | range first last =>
    intro o ho
    obtain ⟨⟨s, hs, p, hp, hdate⟩, -⟩ := hshown o ho
    exact hdate ▸ (hshape s hs).shows p hp

/-- A composition allows what its constituents do. -/
theorem Composition.combineWith_allows {ρ : Type} {c : Composition}
    {resolve : SeriesId → Traced ρ (List Observation)} {resolution : Resolution}
    (hne : c.constituents ≠ [])
    (h : ∀ k ∈ c.constituents, resolution.Allows (resolve k.id).outcome) :
    resolution.Allows (c.combineWith resolve).outcome := by
  cases houtcome : (c.combineWith resolve).outcome with
  | ok rows =>
    obtain ⟨-, series, hs, htotal⟩ := exists_total_of_combineWith houtcome
    apply Resolution.allows_ok
    apply htotal.shape
    · rintro rfl
      exact hne (List.length_eq_zero_iff.1 hs.length_eq)
    · intro s hmem
      obtain ⟨k, hk, hsupplies⟩ := exists_of_forall₂_right hs hmem
      exact (h k hk).shape s hsupplies.1
  | error e =>
    apply Resolution.allows_error
    rcases failure_of_combineWith houtcome with rfl | rfl | ⟨k, hk, hfails⟩
    · rintro ⟨what, got, ⟨⟩⟩
    · rintro ⟨what, got, ⟨⟩⟩
    · cases hfails with
      | unresolved he => exact (h k hk).not_miscount e he
      | unweighted _ _ => rintro ⟨what, got, ⟨⟩⟩

/-! ## Evaluation -/

namespace Catalogue

variable {c : Catalogue} {source : Source}

theorem not_miscount_of_readDefinition {id : SeriesId} {e : Error}
    (h : (c.readDefinition id).outcome = .error e) : ¬ e.IsMiscount := by
  rw [readDefinition, Traced.read] at h
  dsimp only at h
  split at h <;> cases h
  all_goals rintro ⟨what, got, ⟨⟩⟩

/-- By induction on the way down, with a table at every end of it. -/
theorem evaluateBelow_allows
    (hprimitive : ∀ id binding, c.definition id = .ok (some (.primitive binding)) →
      ∃ rows, source.AnswersFrom binding rows)
    (hcomposed : ∀ id comp, c.definition id = .ok (some (.composed comp)) →
      comp.constituents ≠ [])
    (method : Method) (query : Query) (path : List SeriesId) (id : SeriesId) :
    query.resolution.Allows (c.evaluateBelow source method query path id).outcome := by
  induction path, id using below_induction c with
  | step path id ih =>
  by_cases hid : id ∈ path
  · rw [evaluateBelow_of_mem hid]
    exact Resolution.allows_error (by rintro ⟨what, got, ⟨⟩⟩)
  · cases hd : (c.readDefinition id).outcome with
    | error e =>
      rw [evaluateBelow_of_not_mem hid, Traced.bind_of_error hd]
      exact Resolution.allows_error (not_miscount_of_readDefinition hd)
    | ok series =>
      have hd := definition_of_readDefinition hd
      cases series with
      | primitive binding =>
        obtain ⟨rows, hrows⟩ := hprimitive id binding hd
        rw [evaluateBelow_of_primitive hid hd]
        exact Primitive.call_allows hrows method query
      | composed comp =>
        rw [evaluateBelow_of_composed hid hd]
        apply Composition.combineWith_allows (hcomposed id comp hd)
        intro k hk
        exact (ih hid k.id ⟨comp, hd, k, hk, rfl⟩).mapError k.id

/-- Whatever an evaluation answers is there, has one row a date, in order, and shows the days that
were asked for, a single row unless these are a range. No evaluation fails for too many rows. -/
theorem evaluate_shape {r : Registry} {source : Source}
    (hprimitive : ∀ id binding, r.find? id = some (.primitive binding) →
      ∃ rows, source.AnswersFrom binding rows)
    (hcomposed : ∀ id comp, r.find? id = some (.composed comp) →
      ∃ weights, Composition.ofWeights weights = .ok comp)
    (id : SeriesId) (method : Method) (query : Query) :
    let outcome := (r.catalogue.evaluate source id method query).outcome
    (∀ rows, outcome = .ok rows → query.resolution.Shape rows ∧
        ∀ first last, query.checked = .ok query → query.resolution = .range first last →
          ∀ o ∈ rows, first ≤ o.date ∧ o.date ≤ last) ∧
      ∀ e, outcome = .error e → ¬ e.IsMiscount := by
  have hallows : query.resolution.Allows (r.catalogue.evaluate source id method query).outcome := by
    apply evaluateBelow_allows
    · intro id binding hd
      exact hprimitive id binding (Except.ok.inj hd)
    · intro id comp hd
      obtain ⟨weights, hweights⟩ := hcomposed id comp (Except.ok.inj hd)
      exact Composition.constituents_ne_nil_of_ofWeights hweights
  refine ⟨fun rows hok => ⟨hallows.shape rows hok, ?_⟩, hallows.not_miscount⟩
  intro first last hchecked hrange o ho
  have hshows := (hallows.shape rows hok).shows
  rw [hrange] at hshows
  obtain ⟨hfirst, hlast⟩ := hshows o ho
  exact ⟨hfirst, hlast (Query.le_of_checked hchecked hrange)⟩

/-- Two rows of one moment, of which a lookup of one row finds the first. -/
def tiedRows : List Recorded :=
  [⟨⟨⟨2024, 1, 13, by decide⟩, 1200⟩, "2024-01-14T09"⟩,
    ⟨⟨⟨2024, 1, 13, by decide⟩, 1600⟩, "2024-01-14T09"⟩]

def tiedSource : Source := fun _ lookup => .ok <| match lookup with
  | .range _ _ => tiedRows.filter (Recorded.chronology.covers lookup)
  | _ => (tiedRows.find? (Recorded.chronology.covers lookup)).toList

theorem answersFrom_tiedSource (binding : Binding) : tiedSource.AnswersFrom binding tiedRows := by
  have hpick (lookup : Lookup)
      (horder : ∀ a ∈ tiedRows, ∀ b ∈ tiedRows, Recorded.chronology.order lookup a b = true) :
      Chronology.IsPick (Recorded.chronology.covers lookup) (Recorded.chronology.order lookup)
        tiedRows (tiedRows.find? (Recorded.chronology.covers lookup)).toList := by
    cases h : tiedRows.find? (Recorded.chronology.covers lookup) with
    | none => exact .inl ⟨rfl, by simpa using h⟩
    | some a =>
      have ha := List.mem_of_find?_eq_some h
      exact .inr ⟨a, ha, rfl, List.find?_some h, fun b hb _ => horder b hb a ha⟩
  have hupTo : ∀ a ∈ tiedRows, ∀ b ∈ tiedRows, Recorded.chronology.upTo a b = true := by decide
  rintro lookup found ⟨⟩
  cases lookup with
  | range first last => exact .refl _
  | base => exact hpick .base (by decide)
  | latest => exact hpick .latest hupTo
  | exact day => exact hpick (.exact day) hupTo
  | onOrBefore day => exact hpick (.onOrBefore day) hupTo

theorem evaluate_shape_tied :
    let r : Registry := .ofList
      [("food", .primitive (.standard "food")), ("rent", .primitive (.standard "rent")),
        ("prices", .composed ⟨[⟨"food", 1⟩, ⟨"rent", 3⟩], 4⟩)]
    let query : Query := .on ⟨2024, 1, 15, by decide⟩
    let outcome := (r.catalogue.evaluate tiedSource "prices" .value query).outcome
    outcome = .ok [⟨⟨2024, 1, 15, by decide⟩, 1200⟩] ∧
      (∀ rows, outcome = .ok rows → query.resolution.Shape rows ∧
        ∀ first last, query.checked = .ok query → query.resolution = .range first last →
          ∀ o ∈ rows, first ≤ o.date ∧ o.date ≤ last) ∧
      ∀ e, outcome = .error e → ¬ e.IsMiscount := by
  intro r query outcome
  refine ⟨by decide +kernel, evaluate_shape ?_ ?_ "prices" .value query⟩
  · intro id binding _
    exact ⟨tiedRows, answersFrom_tiedSource binding⟩
  · intro id comp h
    have hlist : r.toList = [("food", .primitive (.standard "food")),
        ("prices", .composed ⟨[⟨"food", 1⟩, ⟨"rent", 3⟩], 4⟩),
        ("rent", .primitive (.standard "rent"))] := by decide
    have hmem := SortedMap.find?_eq_some_iff.1 h
    rw [hlist] at hmem
    simp only [List.mem_cons, Prod.mk.injEq, Series.composed.injEq, reduceCtorEq, and_false,
      List.not_mem_nil, or_false, false_or] at hmem
    obtain ⟨-, rfl⟩ := hmem
    exact ⟨[("rent", 3), ("food", 1)], by decide⟩

end Catalogue
end TimeSeries
