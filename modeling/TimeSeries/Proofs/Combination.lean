import TimeSeries.Proofs.Totals

/-!
What combining a composition comes to, with a resolver that changes a state whenever it is asked:
which constituents are asked for and what state that leaves, which failure it is if one fails, and
otherwise the pointwise total of the exact shares of the constituents.
-/
namespace TimeSeries

/-- Which dates are shown depends on the dates of the series alone. -/
theorem Align.shown_congr {series series' : List (List Observation)} {d : Date}
    (h : series.map (fun s => s.map (·.date)) = series'.map (fun s => s.map (·.date))) :
    Shown series d ↔ Shown series' d := by
  have key (series : List (List Observation)) : Shown series d ↔
      (∃ ds ∈ series.map (fun s => s.map (·.date)), d ∈ ds) ∧
        ∀ ds ∈ series.map (fun s => s.map (·.date)), ∃ e ∈ ds, e ≤ d := by
    simp [Shown]
  rw [key, key, h]

namespace Composition

/-- The total weight can be magnified and divided by. -/
def Divides (c : Composition) : Prop := Fits (c.totalWeight.toInt * 1000) ∧ c.totalWeight ≠ 0

/-- A series can be weighted: the magnified weight and the share of every value fit. -/
def CanWeigh (c : Composition) (k : Constituent) (series : List Observation) : Prop :=
  Fits (k.weight.toInt * 1000) ∧ ∀ o ∈ series, Fits (share o.value k.weight c.totalWeight)

/-- The shares that add up to the value of a day, in stored order. -/
def sharesOn (c : Composition) (series : List (List Observation)) (day : Date) : List Int :=
  List.zipWith
    (fun k s => ((Align.carried? day s).map (share · k.weight c.totalWeight)).getD 0)
    c.constituents series

theorem checkTotal_of_not_fits {total : Value} (h : ¬ Fits (total.toInt * 1000)) :
    checkTotal total = .error .overflow := by
  rw [checkTotal, magnified_eq, fitting_of_not_fits h]
  rfl

/-- Combining looks at the constituents only. -/
theorem combineWith_congr {m : Type → Type} [Monad m] [LawfulMonad m] [MonadLiftT (Except Error) m]
    {c : Composition} {resolve resolve' : SeriesId → m (List Observation)}
    (h : ∀ k ∈ c.constituents, resolve k.id = resolve' k.id) :
    c.combineWith resolve = c.combineWith resolve' := by
  have hmap : c.constituents.mapM (contribution c resolve) =
      c.constituents.mapM (contribution c resolve') := by
    apply mapM_congr
    intro k hk
    rw [contribution, contribution, h k hk]
  rw [combineWith, combineWith, hmap]

/-! ## Shares -/

section Shares
variable {c : Composition} {k : Constituent} {s : List Observation}

/-- Weighting keeps the dates and takes the share of every value that is carried. -/
theorem carried?_of_shares {weight total : Value} {s s' : List Observation}
    (h : List.Forall₂ (IsShareOf weight total) s s') (d : Date) :
    (Align.carried? d s').map (·.toInt) = (Align.carried? d s).map (share · weight total) := by
  have hcarried := Align.carried?_forall₂ (R := fun v w => w.toInt = share v weight total) h d
  generalize Align.carried? d s = v? at hcarried
  generalize Align.carried? d s' = w? at hcarried
  cases hcarried with
  | none => rfl
  | some hshare => exact congrArg some hshare

theorem map_date_of_shares {weight total : Value} {s s' : List Observation}
    (h : List.Forall₂ (IsShareOf weight total) s s') : s'.map (·.date) = s.map (·.date) := by
  apply map_eq_of_forall₂ h.flip
  intro o p hop
  exact hop.1

theorem checkTotal_of_divides (hc : c.Divides) : checkTotal c.totalWeight = .ok () := by
  obtain ⟨denominator, hd⟩ := exists_fitting_iff.2 hc.1
  have hne : denominator ≠ 0 := by
    rintro rfl
    have := fitting_eq_ok_iff.1 hd
    have := toInt_ne_zero hc.2
    rw [Int64.toInt_zero] at *
    omega
  rw [checkTotal, magnified_eq, hd, ok_bind, if_neg hne]
  rfl

theorem exists_weigh (hc : c.Divides) (hcan : c.CanWeigh k s) :
    ∃ w, weigh s k.weight c.totalWeight = .ok w ∧
      List.Forall₂ (IsShareOf k.weight c.totalWeight) s w := by
  obtain ⟨w, hw⟩ := (exists_weigh_iff hc.1 hc.2).2 hcan
  exact ⟨w, hw, ((weigh_eq_ok_iff hc.1 hc.2).1 hw).2⟩

theorem weigh_of_not_canWeigh (hc : c.Divides) (hnot : ¬ c.CanWeigh k s) :
    weigh s k.weight c.totalWeight = .error .overflow := by
  cases h : weigh s k.weight c.totalWeight with
  | ok w => exact absurd ((exists_weigh_iff hc.1 hc.2).1 ⟨w, h⟩) hnot
  | error e => rw [eq_overflow_of_weigh hc.1 hc.2 h]

end Shares

/-! ## Asking with a state -/

section Stateful
variable {σ : Type} {c : Composition} {resolve : SeriesId → Stateful σ (List Observation)}

/-- Constituents resolve in turn, each from the state that the one before it has left, to series that
can be weighted. -/
inductive SuppliesFrom (c : Composition) (resolve : SeriesId → Stateful σ (List Observation)) :
    σ → List Constituent → List (List Observation) → σ → Prop
  | nil {s} : SuppliesFrom c resolve s [] [] s
  | cons {s s' s'' k series ks rest} : (resolve k.id).run s = (.ok series, s') →
      c.CanWeigh k series → SuppliesFrom c resolve s' ks rest s'' →
      SuppliesFrom c resolve s (k :: ks) (series :: rest) s''

/-- A constituent fails: as it resolves, or because its series cannot be weighted. -/
inductive FailsFrom (c : Composition) (resolve : SeriesId → Stateful σ (List Observation)) :
    σ → Constituent → Error → σ → Prop
  | unresolved {s s' k e} : (resolve k.id).run s = (.error e, s') → FailsFrom c resolve s k e s'
  | unweighted {s s' k series} : (resolve k.id).run s = (.ok series, s') → ¬ c.CanWeigh k series →
      FailsFrom c resolve s k (.constituent k.id .overflow) s'

/-- What combining from a state comes to, and the state that it leaves. -/
inductive CombinesFrom (c : Composition) (resolve : SeriesId → Stateful σ (List Observation))
    (s : σ) : Except Error (List Observation) × σ → Prop
  /-- A total that cannot be magnified fails before anything is asked for. -/
  | totalTooLarge : ¬ Fits (c.totalWeight.toInt * 1000) →
      CombinesFrom c resolve s (.error .overflow, s)
  | totalZero : c.totalWeight = 0 → CombinesFrom c resolve s (.error .divisionByZero, s)
  /-- The constituents are asked for up to the first one that fails. -/
  | fails {before k after series s' e s''} : c.Divides → c.constituents = before ++ k :: after →
      c.SuppliesFrom resolve s before series s' → c.FailsFrom resolve s' k e s'' →
      CombinesFrom c resolve s (.error e, s'')
  | sumTooLarge {series s' d} : c.Divides → c.SuppliesFrom resolve s c.constituents series s' →
      Align.Shown series d → ¬ SumsFit (c.sharesOn series d) →
      CombinesFrom c resolve s (.error .overflow, s')
  | total {series s' rows} : c.Divides → c.SuppliesFrom resolve s c.constituents series s' →
      IsTotal (Align.Shown series) (c.sharesOn series) rows →
      CombinesFrom c resolve s (.ok rows, s')

theorem run_contribution {k : Constituent} {s s' : σ} {series : List Observation}
    (h : (resolve k.id).run s = (.ok series, s')) : (contribution c resolve k).run s =
      ((weigh series k.weight c.totalWeight).mapError (.constituent k.id), s') :=
  Stateful.run_bind_of_ok h _

theorem FailsFrom.run_contribution (hc : c.Divides) {k : Constituent} {s s' : σ} {e : Error}
    (h : c.FailsFrom resolve s k e s') : (contribution c resolve k).run s = (.error e, s') := by
  cases h with
  | unresolved h => exact Stateful.run_bind_of_error h _
  | unweighted h hnot =>
    rw [Composition.run_contribution h, weigh_of_not_canWeigh hc hnot]
    rfl

/-- Constituents that supply their series weigh in with their exact shares. -/
theorem SuppliesFrom.exists_run_mapM (hc : c.Divides) {s s' : σ} {ks : List Constituent}
    {series : List (List Observation)} (h : c.SuppliesFrom resolve s ks series s') :
    ∃ weighted, (ks.mapM (contribution c resolve)).run s = (.ok weighted, s') ∧
      weighted.map (fun s => s.map (·.date)) = series.map (fun s => s.map (·.date)) ∧
      ∀ d, valuesOn weighted d = sharesOn ⟨ks, c.totalWeight⟩ series d := by
  induction h with
  | nil => exact ⟨[], rfl, rfl, fun d => rfl⟩
  | @cons s s' s'' k series ks rest hresolve hcan _ ih =>
    obtain ⟨weighted, hrun, hdates, hvalues⟩ := ih
    obtain ⟨w, hw, hshares⟩ := exists_weigh hc hcan
    have hk : (contribution c resolve k).run s = (.ok w, s') := by
      rw [run_contribution hresolve, hw]
      rfl
    refine ⟨w :: weighted, ?_, ?_, fun d => ?_⟩
    · rw [List.mapM_cons, Stateful.run_bind_of_ok hk, Stateful.run_bind_of_ok hrun,
        Stateful.run_pure]
    · rw [List.map_cons, List.map_cons, hdates, map_date_of_shares hshares]
    · have hvalues := hvalues d
      rw [valuesOn, sharesOn] at *
      rw [List.map_cons, List.zipWith_cons_cons, hvalues, carried?_of_shares hshares]

theorem SuppliesFrom.run_mapM_of_fails (hc : c.Divides) {s s' s'' : σ}
    {before after : List Constituent} {series : List (List Observation)} {k : Constituent}
    {e : Error} (h : c.SuppliesFrom resolve s before series s')
    (hk : c.FailsFrom resolve s' k e s'') :
    ((before ++ k :: after).mapM (contribution c resolve)).run s = (.error e, s'') := by
  induction h with
  | nil => rw [List.nil_append, List.mapM_cons, Stateful.run_bind_of_error (hk.run_contribution hc)]
  | @cons s t _ b _ _ _ hresolve hcan _ ih =>
    obtain ⟨w, hw, -⟩ := exists_weigh hc hcan
    have hb : (contribution c resolve b).run s = (.ok w, t) := by
      rw [run_contribution hresolve, hw]
      rfl
    rw [List.cons_append, List.mapM_cons, Stateful.run_bind_of_ok hb,
      Stateful.run_bind_of_error (ih hk)]

/-- Either all constituents supply their series, or there is a first one that fails. -/
theorem suppliesFrom_or_failsFrom (c : Composition)
    (resolve : SeriesId → Stateful σ (List Observation)) (s : σ) (ks : List Constituent) :
    (∃ series s', c.SuppliesFrom resolve s ks series s') ∨
      ∃ before k after series s' e s'', ks = before ++ k :: after ∧
        c.SuppliesFrom resolve s before series s' ∧ c.FailsFrom resolve s' k e s'' := by
  induction ks generalizing s with
  | nil => exact .inl ⟨[], s, .nil⟩
  | cons k ks ih =>
    rcases hk : (resolve k.id).run s with ⟨e | series, s'⟩
    · exact .inr ⟨[], k, ks, [], s, e, s', rfl, .nil, .unresolved hk⟩
    · by_cases hcan : c.CanWeigh k series
      · rcases ih s' with ⟨rest, s'', hrest⟩ |
          ⟨before, k', after, rest, t, e, t', rfl, hbefore, hfails⟩
        · exact .inl ⟨_, s'', .cons hk hcan hrest⟩
        · exact .inr ⟨k :: before, k', after, _, t, e, t', rfl, .cons hk hcan hbefore, hfails⟩
      · exact .inr ⟨[], k, ks, [], s, _, s', rfl, .nil, .unweighted hk hcan⟩

theorem run_combineWith_of_divides (hc : c.Divides) (s : σ) : (c.combineWith resolve).run s =
    (c.constituents.mapM (contribution c resolve) >>= fun weighted =>
      liftM (sumRows (Align.rows weighted))).run s := by
  rw [combineWith, checkTotal_of_divides hc, Stateful.run_bind_of_ok (Stateful.run_lift _ s)]
  simp only [sumAligned_fillForward]

/-- If all constituents supply their series, all are asked for, and the outcome is the total of series
whose values on a day are the shares of the day. -/
theorem SuppliesFrom.run_combineWith (hc : c.Divides) {s s' : σ}
    {series : List (List Observation)} (hs : c.SuppliesFrom resolve s c.constituents series s') :
    ∃ weighted, (c.combineWith resolve).run s = (sumRows (Align.rows weighted), s') ∧
      Align.Shown weighted = Align.Shown series ∧ valuesOn weighted = c.sharesOn series := by
  obtain ⟨weighted, hrun, hdates, hvalues⟩ := hs.exists_run_mapM hc
  refine ⟨weighted, ?_, funext fun d => propext (Align.shown_congr hdates), funext hvalues⟩
  rw [run_combineWith_of_divides hc, Stateful.run_bind_of_ok hrun, Stateful.run_lift]

theorem run_combineWith_of_combinesFrom {s : σ} {x : Except Error (List Observation) × σ}
    (h : c.CombinesFrom resolve s x) : (c.combineWith resolve).run s = x := by
  cases h with
  | totalTooLarge h =>
    rw [combineWith, checkTotal_of_not_fits h]
    rfl
  | totalZero h =>
    rw [combineWith, h]
    rfl
  | fails hc hsplit hbefore hk =>
    rw [run_combineWith_of_divides hc, hsplit,
      Stateful.run_bind_of_error (hbefore.run_mapM_of_fails hc hk)]
  | sumTooLarge hc hs hshown hnot =>
    obtain ⟨weighted, hrun, hdates, hvalues⟩ := hs.run_combineWith hc
    rw [hrun, sumRows_eq_error_iff.2 ⟨rfl, _, hdates ▸ hshown, hvalues ▸ hnot⟩]
  | total hc hs htotal =>
    obtain ⟨weighted, hrun, hdates, hvalues⟩ := hs.run_combineWith hc
    rw [hrun, sumRows_eq_ok_iff.2 (hdates ▸ hvalues ▸ htotal)]

theorem exists_combinesFrom (c : Composition)
    (resolve : SeriesId → Stateful σ (List Observation)) (s : σ) :
    ∃ x, c.CombinesFrom resolve s x := by
  by_cases hfits : Fits (c.totalWeight.toInt * 1000)
  · by_cases hzero : c.totalWeight = 0
    · exact ⟨_, .totalZero hzero⟩
    · have hc : c.Divides := ⟨hfits, hzero⟩
      rcases suppliesFrom_or_failsFrom c resolve s c.constituents with
        ⟨series, s', hs⟩ | ⟨before, k, after, series, s', e, s'', hsplit, hbefore, hk⟩
      · obtain ⟨weighted, -, hshown, hvalues⟩ := hs.run_combineWith hc
        cases hsum : sumRows (Align.rows weighted) with
        | ok rows =>
          have htotal := sumRows_eq_ok_iff.1 hsum
          rw [hshown, hvalues] at htotal
          exact ⟨_, .total hc hs htotal⟩
        | error e =>
          obtain ⟨-, d, hd, hnot⟩ := sumRows_eq_error_iff.1 hsum
          rw [hshown] at hd
          rw [hvalues] at hnot
          exact ⟨_, .sumTooLarge hc hs hd hnot⟩
      · exact ⟨_, .fails hc hsplit hbefore hk⟩
  · exact ⟨_, .totalTooLarge hfits⟩

/-- Combining from a state comes to exactly what the judgement says, for every composition and
resolver: the outcome, and the state that the questions asked leave. -/
theorem run_combineWith_eq_iff_combinesFrom (c : Composition)
    (resolve : SeriesId → Stateful σ (List Observation)) (s : σ)
    (x : Except Error (List Observation) × σ) :
    (c.combineWith resolve).run s = x ↔ c.CombinesFrom resolve s x := by
  constructor
  · rintro rfl
    obtain ⟨x, hx⟩ := exists_combinesFrom c resolve s
    rw [run_combineWith_of_combinesFrom hx]
    exact hx
  · exact run_combineWith_of_combinesFrom

end Stateful

end Composition
end TimeSeries
