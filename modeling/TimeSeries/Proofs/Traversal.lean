import TimeSeries.Traced
import Mathlib.Data.List.Forall2

/-!
Lists worked through one element at a time by a step that may fail. Success is a result for every
element; a failure is that of the first element whose step fails, and nothing after it is tried.
-/
namespace TimeSeries

section Related
variable {α β γ : Type} {R : α → β → Prop} {l : List α} {r : List β}

theorem map_eq_of_forall₂ {f : α → γ} {g : β → γ} (h : List.Forall₂ R l r)
    (hfg : ∀ a b, R a b → f a = g b) : l.map f = r.map g := by
  induction h with
  | nil => rfl
  | cons hab _ ih => rw [List.map_cons, List.map_cons, ih, hfg _ _ hab]

theorem exists_of_forall₂_right (h : List.Forall₂ R l r) {b : β} (hb : b ∈ r) :
    ∃ a ∈ l, R a b := by
  induction h with
  | nil => cases hb
  | cons hab _ ih =>
    rcases List.mem_cons.1 hb with rfl | hb
    · exact ⟨_, List.mem_cons_self, hab⟩
    · obtain ⟨a, ha, hR⟩ := ih hb
      exact ⟨a, List.mem_cons_of_mem _ ha, hR⟩

theorem exists_of_forall₂_left (h : List.Forall₂ R l r) {a : α} (ha : a ∈ l) :
    ∃ b ∈ r, R a b := exists_of_forall₂_right h.flip ha

theorem exists_forall₂_iff {l : List α} {R : α → β → Prop} :
    (∃ r, List.Forall₂ R l r) ↔ ∀ a ∈ l, ∃ b, R a b := by
  constructor
  · rintro ⟨r, hr⟩ a ha
    obtain ⟨b, -, hb⟩ := exists_of_forall₂_left hr ha
    exact ⟨b, hb⟩
  · intro h
    induction l with
    | nil => exact ⟨[], .nil⟩
    | cons a l ih =>
      obtain ⟨b, hb⟩ := h a List.mem_cons_self
      obtain ⟨r, hr⟩ := ih fun a ha => h a (List.mem_cons_of_mem _ ha)
      exact ⟨b :: r, .cons hb hr⟩

theorem forall₂_imp_of_mem {S : α → β → Prop} (h : List.Forall₂ R l r)
    (himp : ∀ a ∈ l, ∀ b ∈ r, R a b → S a b) : List.Forall₂ S l r := by
  induction h with
  | nil => exact .nil
  | cons hab _ ih =>
    refine .cons (himp _ List.mem_cons_self _ List.mem_cons_self hab) (ih ?_)
    intro a ha b hb
    exact himp a (List.mem_cons_of_mem _ ha) b (List.mem_cons_of_mem _ hb)

/-- Either all elements are of the one kind, or there is a first one of the other. -/
theorem forall_or_first {P Q : α → Prop} {l : List α} (h : ∀ a ∈ l, P a ∨ Q a) :
    (∀ a ∈ l, P a) ∨
      ∃ before a after, l = before ++ a :: after ∧ (∀ b ∈ before, P b) ∧ Q a := by
  induction l with
  | nil => exact .inl (by simp)
  | cons a l ih =>
    rcases h a List.mem_cons_self with ha | ha
    · rcases ih fun b hb => h b (List.mem_cons_of_mem _ hb) with
        hall | ⟨before, b, after, rfl, hb, hQ⟩
      · exact .inl (List.forall_mem_cons.2 ⟨ha, hall⟩)
      · exact .inr ⟨a :: before, b, after, rfl, List.forall_mem_cons.2 ⟨ha, hb⟩, hQ⟩
    · exact .inr ⟨[], a, l, rfl, by simp, ha⟩

end Related

theorem mapM_congr {m : Type → Type} [Monad m] [LawfulMonad m] {α β : Type} {f g : α → m β}
    {l : List α} (h : ∀ a ∈ l, f a = g a) : l.mapM f = l.mapM g := by
  induction l with
  | nil => rfl
  | cons a l ih =>
    rw [List.mapM_cons, List.mapM_cons, h a List.mem_cons_self,
      ih fun a ha => h a (List.mem_cons_of_mem _ ha)]

section Except
variable {α β ε : Type} {f : α → Except ε β} {l : List α}

@[simp] theorem ok_bind (a : α) (g : α → Except ε β) : (Except.ok a >>= g) = g a := rfl

@[simp] theorem error_bind (e : ε) (g : α → Except ε β) : (Except.error e >>= g) = .error e := rfl

@[simp] theorem pure_eq_ok (a : α) : (pure a : Except ε α) = .ok a := rfl

theorem bind_eq_ok_iff {x : Except ε α} {g : α → Except ε β} {b : β} :
    (x >>= g) = .ok b ↔ ∃ a, x = .ok a ∧ g a = .ok b := by
  cases x <;> simp

theorem bind_eq_error_iff {x : Except ε α} {g : α → Except ε β} {e : ε} :
    (x >>= g) = .error e ↔ x = .error e ∨ ∃ a, x = .ok a ∧ g a = .error e := by
  cases x <;> simp

theorem map_eq_ok_iff {x : Except ε α} {g : α → β} {b : β} :
    x.map g = .ok b ↔ ∃ a, x = .ok a ∧ g a = b := by
  cases x <;> simp [Except.map]

theorem mapError_eq_ok_iff {ε' : Type} {x : Except ε α} {g : ε → ε'} {a : α} :
    x.mapError g = .ok a ↔ x = .ok a := by
  cases x <;> simp [Except.mapError]

theorem mapError_eq_error_iff {ε' : Type} {x : Except ε α} {g : ε → ε'} {e : ε'} :
    x.mapError g = .error e ↔ ∃ e', x = .error e' ∧ g e' = e := by
  cases x <;> simp [Except.mapError]

/-- The traversal succeeds with one result for each element, in order. -/
theorem mapM_eq_ok_iff {r : List β} :
    l.mapM f = .ok r ↔ List.Forall₂ (fun a b => f a = .ok b) l r := by
  induction l generalizing r with
  | nil => cases r <;> simp
  | cons a l ih =>
    rw [List.mapM_cons]
    cases ha : f a with
    | error e => cases r <;> simp [ha]
    | ok b =>
      cases r with
      | nil => simp [bind_eq_ok_iff]
      | cons b' r => simp [bind_eq_ok_iff, ha, ← ih, and_comm]

theorem mapM_append_cons_of_error {before after : List α} {a : α} {e : ε}
    (hb : ∀ b ∈ before, ∃ v, f b = .ok v) (ha : f a = .error e) :
    (before ++ a :: after).mapM f = .error e := by
  induction before with
  | nil => simp [ha]
  | cons b before ih =>
    obtain ⟨v, hv⟩ := hb b List.mem_cons_self
    have ht := ih fun b hb' => hb b (List.mem_cons_of_mem _ hb')
    simp [hv, ht]

/-- A failed traversal fails as its first failing step does. -/
theorem mapM_eq_error_iff {e : ε} :
    l.mapM f = .error e ↔ ∃ before a after, l = before ++ a :: after ∧
      (∀ b ∈ before, ∃ v, f b = .ok v) ∧ f a = .error e := by
  constructor
  · intro h
    have hstep (a : α) (_ : a ∈ l) : (∃ v, f a = .ok v) ∨ ∃ e, f a = .error e := by
      cases f a <;> simp
    rcases forall_or_first hstep with hall | ⟨before, a, after, rfl, hb, e', ha⟩
    · obtain ⟨r, hr⟩ := exists_forall₂_iff.2 hall
      rw [mapM_eq_ok_iff.2 hr] at h
      cases h
    · rw [mapM_append_cons_of_error hb ha] at h
      cases h
      exact ⟨before, a, after, rfl, hb, ha⟩
  · rintro ⟨before, a, after, rfl, hb, ha⟩
    exact mapM_append_cons_of_error hb ha

/-- Two passes over a list come to the same as one, if there is only one way to fail. -/
theorem mapM_bind_mapM {γ : Type} {g : β → Except ε γ} {e : ε}
    (hf : ∀ a e', f a = .error e' → e' = e) (hg : ∀ b e', g b = .error e' → e' = e) (l : List α) :
    (l.mapM f >>= fun r => r.mapM g) = l.mapM fun a => f a >>= g := by
  induction l with
  | nil => rfl
  | cons a l ih =>
    rw [List.mapM_cons, List.mapM_cons, ← ih]
    cases ha : f a with
    | error e' => rfl
    | ok b =>
      simp only [ok_bind]
      cases hl : l.mapM f with
      | ok r => simp [List.mapM_cons]
      | error e' =>
        obtain ⟨_, a', _, -, -, ha'⟩ := mapM_eq_error_iff.1 hl
        obtain rfl := hf a' e' ha'
        cases hb : g b with
        | ok c => rfl
        | error e'' =>
          rw [hg b e'' hb]
          rfl

/-- Checks that are made one after the other pass if each of them does. -/
theorem forM_eq_ok_iff {check : α → Except ε Unit} :
    l.forM check = .ok () ↔ ∀ a ∈ l, check a = .ok () := by
  induction l with
  | nil => exact ⟨nofun, fun _ => rfl⟩
  | cons a l ih =>
    show (check a >>= fun _ => l.forM check) = .ok () ↔ _
    rw [bind_eq_ok_iff, ih, List.forall_mem_cons]
    exact ⟨fun ⟨(), h⟩ => h, fun h => ⟨(), h⟩⟩

end Except

section Option
variable {α β : Type} {f : α → Option β} {l : List α}

theorem mapM_eq_some_iff {r : List β} :
    l.mapM f = some r ↔ List.Forall₂ (fun a b => f a = some b) l r := by
  induction l generalizing r with
  | nil => cases r <;> simp
  | cons a l ih =>
    rw [List.mapM_cons]
    cases ha : f a with
    | none => cases r <;> simp [ha]
    | some b =>
      cases r with
      | nil => simp [Option.bind_eq_some_iff]
      | cons b' r => simp [Option.bind_eq_some_iff, ha, ← ih, and_comm]

theorem mapM_eq_some_map {g : α → β} (h : ∀ a ∈ l, f a = some (g a)) :
    l.mapM f = some (l.map g) := by
  rw [mapM_eq_some_iff, List.forall₂_map_right_iff, List.forall₂_same]
  exact h

theorem mapM_eq_some_filterMap (h : ∀ a ∈ l, (f a).isSome) : l.mapM f = some (l.filterMap f) := by
  induction l with
  | nil => rfl
  | cons a l ih =>
    obtain ⟨b, hb⟩ := Option.isSome_iff_exists.1 (h a List.mem_cons_self)
    rw [List.mapM_cons, hb, ih fun a ha => h a (List.mem_cons_of_mem _ ha),
      List.filterMap_cons_some hb]
    rfl

end Option

namespace Traced

variable {ρ α β : Type}

@[simp] theorem outcome_done (o : Except Error α) : (done o : Traced ρ α).outcome = o := rfl

@[simp] theorem liftM_eq_done (o : Except Error α) : (liftM o : Traced ρ α) = done o := rfl

theorem reads_bind_of_ok {x : Traced ρ α} {a : α} (h : x.outcome = .ok a) (f : α → Traced ρ β) :
    (x >>= f).reads = x.reads ++ (f a).reads := by rw [bind_of_ok h]

theorem reads_bind_of_error {x : Traced ρ α} {e : Error} (h : x.outcome = .error e)
    (f : α → Traced ρ β) : (x >>= f).reads = x.reads := by rw [bind_of_error h]

@[simp] theorem outcome_mapM (f : α → Traced ρ β) (l : List α) :
    (l.mapM f).outcome = l.mapM fun a => (f a).outcome := by
  induction l with
  | nil => rfl
  | cons a l ih => simp only [List.mapM_cons, outcome_bind, ih, outcome_pure, pure_eq_ok]

end Traced

namespace Stateful

variable {σ α β : Type}

theorem run_bind (x : Stateful σ α) (f : α → Stateful σ β) (s : σ) :
    (x >>= f).run s = match x.run s with
      | (.ok a, s') => (f a).run s'
      | (.error e, s') => (.error e, s') := by
  show (match x.run s with | (r, s') => ExceptT.bindCont f r s') = _
  obtain ⟨r, s'⟩ := x.run s
  cases r <;> rfl

theorem run_bind_of_ok {x : Stateful σ α} {s s' : σ} {a : α} (h : x.run s = (.ok a, s'))
    (f : α → Stateful σ β) : (x >>= f).run s = (f a).run s' := by rw [run_bind, h]

theorem run_bind_of_error {x : Stateful σ α} {s s' : σ} {e : Error} (h : x.run s = (.error e, s'))
    (f : α → Stateful σ β) : (x >>= f).run s = (.error e, s') := by rw [run_bind, h]

theorem run_pure (a : α) (s : σ) : (pure a : Stateful σ α).run s = (.ok a, s) := rfl

theorem run_lift (o : Except Error α) (s : σ) : (liftM o : Stateful σ α).run s = (o, s) := rfl

end Stateful
end TimeSeries
