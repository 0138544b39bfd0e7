import TimeSeries.Proofs.Combination

/-!
Combining with a resolver that answers the same whenever it is asked and keeps a list of its reads.
That is to combine from a state that only takes note of the reads, so what it comes to is a matter
of the constituents alone.
-/
namespace TimeSeries

/-! ## Reads that a state takes note of -/

namespace Traced

variable {ρ σ α β : Type} (note : σ → ρ → σ)

theorem run_noted (x : Traced ρ α) (s : σ) :
    (x.noted note).run s = (x.outcome, x.reads.foldl note s) := rfl

theorem noted_done (o : Except Error α) : (done o : Traced ρ α).noted note = liftM o := rfl

theorem noted_bind (x : Traced ρ α) (f : α → Traced ρ β) :
    (x >>= f).noted note = x.noted note >>= fun a => (f a).noted note := by
  funext s
  cases h : x.outcome with
  | ok a =>
    have hx : (x.noted note).run s = (.ok a, x.reads.foldl note s) := by rw [run_noted, h]
    refine Eq.trans ?_ (Stateful.run_bind_of_ok hx _).symm
    rw [noted, bind_of_ok h, List.foldl_append, run_noted]
  | error e =>
    have hx : (x.noted note).run s = (.error e, x.reads.foldl note s) := by rw [run_noted, h]
    refine Eq.trans ?_ (Stateful.run_bind_of_error hx _).symm
    rw [noted, bind_of_error h]

theorem noted_mapM (f : α → Traced ρ β) (l : List α) :
    (l.mapM f).noted note = l.mapM fun a => (f a).noted note := by
  induction l with
  | nil => rfl
  | cons a l ih =>
    simp only [List.mapM_cons, noted_bind, ih]
    rfl

theorem foldl_concat (l log : List ρ) : l.foldl (fun log r => log ++ [r]) log = log ++ l := by
  induction l generalizing log with
  | nil => simp
  | cons r l ih => rw [List.foldl_cons, ih, List.append_assoc, List.singleton_append]

end Traced

namespace Composition

section Noted
variable {ρ σ : Type} (note : σ → ρ → σ) (c : Composition)
  (resolve : SeriesId → Traced ρ (List Observation))

/-- The reads may be noted while the constituents are asked or afterwards. -/
theorem noted_combineWith : (c.combineWith resolve).noted note =
    c.combineWith fun id => (resolve id).noted note := by
  have hcontribution (k : Constituent) : (contribution c resolve k).noted note =
      contribution c (fun id => (resolve id).noted note) k := by
    simp only [contribution, Traced.noted_bind, Traced.liftM_eq_done, Traced.noted_done]
  simp only [combineWith, Traced.noted_bind, Traced.noted_mapM, Traced.liftM_eq_done,
    Traced.noted_done, hcontribution]

end Noted

variable {ρ : Type}

/-- A constituent resolves to a series that can be weighted. -/
def Supplies (c : Composition) (resolve : SeriesId → Traced ρ (List Observation))
    (k : Constituent) (series : List Observation) : Prop :=
  (resolve k.id).outcome = .ok series ∧ c.CanWeigh k series

/-- A constituent fails: as it resolves, or because its series cannot be weighted. -/
inductive FailsWith (c : Composition) (resolve : SeriesId → Traced ρ (List Observation))
    (k : Constituent) : Error → Prop
  | unresolved {e} : (resolve k.id).outcome = .error e → FailsWith c resolve k e
  | unweighted {series} : (resolve k.id).outcome = .ok series → ¬ c.CanWeigh k series →
      FailsWith c resolve k (.constituent k.id .overflow)

section Combine
variable {c : Composition} {resolve : SeriesId → Traced ρ (List Observation)}

theorem outcome_contribution {k : Constituent} : (contribution c resolve k).outcome =
    (resolve k.id).outcome >>= fun s =>
      (weigh s k.weight c.totalWeight).mapError (.constituent k.id) := by
  rw [contribution, Traced.outcome_bind]
  rfl

theorem suppliesFrom_noted_iff {σ : Type} {note : σ → ρ → σ} {s s' : σ} {ks : List Constituent}
    {series : List (List Observation)} :
    c.SuppliesFrom (fun id => (resolve id).noted note) s ks series s' ↔
      List.Forall₂ (c.Supplies resolve) ks series ∧
        s' = (ks.flatMap fun k => (resolve k.id).reads).foldl note s := by
  constructor
  · intro h
    induction h with
    | nil => exact ⟨.nil, rfl⟩
    | cons hresolve hcan _ ih =>
      obtain ⟨houtcome, rfl⟩ := Prod.mk.inj hresolve
      obtain ⟨hrest, rfl⟩ := ih
      exact ⟨.cons ⟨houtcome, hcan⟩ hrest, by rw [List.flatMap_cons, List.foldl_append]⟩
  · rintro ⟨h, rfl⟩
    induction h generalizing s with
    | nil => exact .nil
    | cons hk _ ih =>
      rw [List.flatMap_cons, List.foldl_append]
      exact .cons (Prod.ext hk.1 rfl) hk.2 ih

theorem failsFrom_noted_iff {σ : Type} {note : σ → ρ → σ} {s s' : σ} {k : Constituent}
    {e : Error} : c.FailsFrom (fun id => (resolve id).noted note) s k e s' ↔
      c.FailsWith resolve k e ∧ s' = (resolve k.id).reads.foldl note s := by
  constructor
  · rintro (h | ⟨h, hnot⟩)
    · obtain ⟨houtcome, rfl⟩ := Prod.mk.inj h
      exact ⟨.unresolved houtcome, rfl⟩
    · obtain ⟨houtcome, rfl⟩ := Prod.mk.inj h
      exact ⟨.unweighted houtcome hnot, rfl⟩
  · rintro ⟨h | ⟨h, hnot⟩, rfl⟩
    · exact .unresolved (Prod.ext h rfl)
    · exact .unweighted (Prod.ext h rfl) hnot

/-- What combining comes to, as a judgement about the constituents alone. -/
inductive Combines (c : Composition) (resolve : SeriesId → Traced ρ (List Observation)) :
    Traced ρ (List Observation) → Prop
  /-- A total that cannot be magnified fails before anything is asked for. -/
  | totalTooLarge : ¬ Fits (c.totalWeight.toInt * 1000) → Combines c resolve ⟨[], .error .overflow⟩
  | totalZero : c.totalWeight = 0 → Combines c resolve ⟨[], .error .divisionByZero⟩
  /-- The constituents are asked for up to the first one that fails. -/
  | fails {before k after e} : c.Divides → c.constituents = before ++ k :: after →
      (∀ b ∈ before, ∃ s, c.Supplies resolve b s) → c.FailsWith resolve k e →
      Combines c resolve ⟨(before ++ [k]).flatMap fun b => (resolve b.id).reads, .error e⟩
  | sumTooLarge {series d} : c.Divides →
      List.Forall₂ (c.Supplies resolve) c.constituents series → Align.Shown series d →
      ¬ SumsFit (c.sharesOn series d) →
      Combines c resolve ⟨c.constituents.flatMap fun k => (resolve k.id).reads, .error .overflow⟩
  | total {series rows} : c.Divides →
      List.Forall₂ (c.Supplies resolve) c.constituents series →
      IsTotal (Align.Shown series) (c.sharesOn series) rows →
      Combines c resolve ⟨c.constituents.flatMap fun k => (resolve k.id).reads, .ok rows⟩

/-- The resolver that adds its reads to a log. -/
def logging (resolve : SeriesId → Traced ρ (List Observation)) (id : SeriesId) :
    Stateful (List ρ) (List Observation) := (resolve id).noted fun log r => log ++ [r]

theorem run_combineWith_logging : (c.combineWith (logging resolve)).run [] =
    ((c.combineWith resolve).outcome, (c.combineWith resolve).reads) := by
  show (c.combineWith fun id => (resolve id).noted fun log r => log ++ [r]).run [] = _
  rw [← noted_combineWith, Traced.run_noted, Traced.foldl_concat, List.nil_append]

theorem combinesFrom_logging_iff {x : Traced ρ (List Observation)} :
    c.CombinesFrom (logging resolve) [] (x.outcome, x.reads) ↔ c.Combines resolve x := by
  have hlog (ks : List Constituent) : (ks.flatMap fun k => (resolve k.id).reads).foldl
      (fun log r => log ++ [r]) [] = ks.flatMap fun k => (resolve k.id).reads := by
    rw [Traced.foldl_concat, List.nil_append]
  obtain ⟨reads, outcome⟩ := x
  constructor
  · intro h
    generalize hx : (outcome, reads) = x at h
    cases h with
    | totalTooLarge h => cases hx; exact .totalTooLarge h
    | totalZero h => cases hx; exact .totalZero h
    | fails hc hsplit hbefore hk =>
      cases hx
      obtain ⟨hsupplies, rfl⟩ := suppliesFrom_noted_iff.1 hbefore
      obtain ⟨hfails, rfl⟩ := failsFrom_noted_iff.1 hk
      rw [hlog, Traced.foldl_concat]
      have h := Combines.fails hc hsplit (exists_forall₂_iff.1 ⟨_, hsupplies⟩) hfails
      simpa using h
    | sumTooLarge hc hs hshown hnot =>
      cases hx
      obtain ⟨hsupplies, rfl⟩ := suppliesFrom_noted_iff.1 hs
      rw [hlog]
      exact .sumTooLarge hc hsupplies hshown hnot
    | total hc hs htotal =>
      cases hx
      obtain ⟨hsupplies, rfl⟩ := suppliesFrom_noted_iff.1 hs
      rw [hlog]
      exact .total hc hsupplies htotal
  · intro h
    cases h with
    | totalTooLarge h => exact .totalTooLarge h
    | totalZero h => exact .totalZero h
    | fails hc hsplit hbefore hk =>
      obtain ⟨series, hseries⟩ := exists_forall₂_iff.2 hbefore
      refine .fails hc hsplit (suppliesFrom_noted_iff.2 ⟨hseries, rfl⟩)
        (failsFrom_noted_iff.2 ⟨hk, ?_⟩)
      rw [hlog, Traced.foldl_concat]
      simp
    | sumTooLarge hc hs hshown hnot =>
      exact .sumTooLarge hc (suppliesFrom_noted_iff.2 ⟨hs, (hlog _).symm⟩) hshown hnot
    | total hc hs htotal =>
      exact .total hc (suppliesFrom_noted_iff.2 ⟨hs, (hlog _).symm⟩) htotal

theorem combineWith_eq_of_combines {x : Traced ρ (List Observation)} (h : c.Combines resolve x) :
    c.combineWith resolve = x := by
  have hrun := run_combineWith_of_combinesFrom (combinesFrom_logging_iff.2 h)
  rw [run_combineWith_logging] at hrun
  obtain ⟨houtcome, hreads⟩ := Prod.mk.inj hrun
  exact Traced.ext hreads houtcome

theorem exists_combines (c : Composition) (resolve : SeriesId → Traced ρ (List Observation)) :
    ∃ x, c.Combines resolve x := by
  obtain ⟨⟨outcome, reads⟩, h⟩ := exists_combinesFrom c (logging resolve) []
  exact ⟨⟨reads, outcome⟩, combinesFrom_logging_iff.1 h⟩

/-- Without a state, too, combining comes to exactly what the judgement says. -/
theorem combineWith_eq_iff_combines (c : Composition)
    (resolve : SeriesId → Traced ρ (List Observation)) (x : Traced ρ (List Observation)) :
    c.combineWith resolve = x ↔ c.Combines resolve x := by
  constructor
  · rintro rfl
    obtain ⟨x, hx⟩ := exists_combines c resolve
    rw [combineWith_eq_of_combines hx]
    exact hx
  · exact combineWith_eq_of_combines

theorem forall₂_supplies {data : SeriesId → List Observation}
    (hresolve : ∀ k ∈ c.constituents, (resolve k.id).outcome = .ok (data k.id))
    (hcan : ∀ k ∈ c.constituents, c.CanWeigh k (data k.id)) :
    List.Forall₂ (c.Supplies resolve) c.constituents (c.constituents.map fun k => data k.id) := by
  rw [List.forall₂_map_right_iff, List.forall₂_same]
  intro k hk
  exact ⟨hresolve k hk, hcan k hk⟩

/-- If all constituents supply their series, all are asked for, in order, and the outcome is the
pointwise total of their shares. -/
theorem combineWith_of_supplies (hc : c.Divides) {series : List (List Observation)}
    (h : List.Forall₂ (c.Supplies resolve) c.constituents series) :
    (c.combineWith resolve).reads = c.constituents.flatMap (fun k => (resolve k.id).reads) ∧
      (∀ rows, (c.combineWith resolve).outcome = .ok rows ↔
        IsTotal (Align.Shown series) (c.sharesOn series) rows) ∧
      ∀ e, (c.combineWith resolve).outcome = .error e ↔
        e = .overflow ∧ ∃ d, Align.Shown series d ∧ ¬ SumsFit (c.sharesOn series d) := by
  have hfrom : c.SuppliesFrom (logging resolve) [] c.constituents series _ :=
    suppliesFrom_noted_iff.2 ⟨h, rfl⟩
  obtain ⟨weighted, hrun, hshown, hshares⟩ := hfrom.run_combineWith hc
  obtain ⟨houtcome, hreads⟩ := Prod.mk.inj (run_combineWith_logging.symm.trans hrun)
  rw [Traced.foldl_concat, List.nil_append] at hreads
  rw [houtcome, ← hshown, ← hshares]
  exact ⟨hreads, fun rows => sumRows_eq_ok_iff, fun e => sumRows_eq_error_iff⟩

end Combine

end Composition
end TimeSeries
