import TimeSeries.Error

/-!
Computations that may fail and that leave a mark as they go. Some keep a list of the reads they make,
in order; others change a state. A failure keeps the reads and the changes made before it, and
nothing is read or changed after it.
-/
namespace TimeSeries

/-- A step that may change a state and may fail. What it has changed before it fails stays
changed. -/
abbrev Stateful (σ : Type) := ExceptT Error (StateM σ)

structure Traced (ρ α : Type) where
  reads : List ρ
  outcome : Except Error α

namespace Traced

variable {ρ α β : Type}

@[ext] theorem ext {x y : Traced ρ α} (hr : x.reads = y.reads) (ho : x.outcome = y.outcome) :
    x = y := by
  cases x; cases y; simp_all

/-- An outcome that takes no read. -/
def done (outcome : Except Error α) : Traced ρ α := ⟨[], outcome⟩

/-- A single read and what came of it. -/
def read (r : ρ) (outcome : Except Error α) : Traced ρ α := ⟨[r], outcome⟩

def andThen (x : Traced ρ α) (f : α → Traced ρ β) : Traced ρ β :=
  match x.outcome with
  | .ok a => ⟨x.reads ++ (f a).reads, (f a).outcome⟩
  | .error e => ⟨x.reads, .error e⟩

/-- A computation that keeps its reads as one that changes a state, which takes note of them one
after the other. -/
def noted {σ : Type} (note : σ → ρ → σ) (x : Traced ρ α) : Stateful σ α :=
  fun s => (x.outcome, x.reads.foldl note s)

instance : Monad (Traced ρ) where
  pure a := done (.ok a)
  bind := andThen

instance : MonadExceptOf Error (Traced ρ) where
  throw e := done (.error e)
  tryCatch x handle := match x.outcome with
    | .ok _ => x
    | .error e => ⟨x.reads ++ (handle e).reads, (handle e).outcome⟩

instance : MonadLift (Except Error) (Traced ρ) := ⟨done⟩

@[simp] theorem outcome_pure (a : α) : (pure a : Traced ρ α).outcome = .ok a := rfl

theorem bind_of_ok {x : Traced ρ α} {a : α} (h : x.outcome = .ok a) (f : α → Traced ρ β) :
    x >>= f = ⟨x.reads ++ (f a).reads, (f a).outcome⟩ := by
  show andThen x f = _
  simp [andThen, h]

theorem bind_of_error {x : Traced ρ α} {e : Error} (h : x.outcome = .error e)
    (f : α → Traced ρ β) : x >>= f = ⟨x.reads, .error e⟩ := by
  show andThen x f = _
  simp [andThen, h]

@[simp] theorem outcome_bind (x : Traced ρ α) (f : α → Traced ρ β) :
    (x >>= f).outcome = x.outcome >>= fun a => (f a).outcome := by
  cases h : x.outcome with
  | ok a => simp [bind_of_ok h]; rfl
  | error e => simp [bind_of_error h]; rfl

instance : LawfulMonad (Traced ρ) where
  map_const := rfl
  id_map x := by
    show andThen x (fun a => done (.ok a)) = x
    rcases x with ⟨r, _ | a⟩ <;> simp [andThen, done]
  seqLeft_eq x y := by
    show andThen x (fun a => andThen y fun _ => done (.ok a)) =
      andThen (andThen x fun a => done (.ok (Function.const _ a))) fun f =>
        andThen y fun b => done (.ok (f b))
    rcases x with ⟨r, _ | a⟩ <;> rcases y with ⟨s, _ | b⟩ <;> simp [andThen, done]
  seqRight_eq x y := by
    show andThen x (fun _ => y) =
      andThen (andThen x fun a => done (.ok (Function.const _ id a))) fun f =>
        andThen y fun b => done (.ok (f b))
    rcases x with ⟨r, _ | a⟩ <;> rcases y with ⟨s, _ | b⟩ <;> simp [andThen, done]
  pure_seq g x := by
    show andThen (done (.ok g)) (fun f => andThen x fun a => done (.ok (f a))) =
      andThen x fun a => done (.ok (g a))
    simp [andThen, done]
  bind_pure_comp _ _ := rfl
  bind_map _ _ := rfl
  pure_bind a f := by
    show andThen (done (.ok a)) f = f a
    simp [andThen, done]
  bind_assoc x f g := by
    show andThen (andThen x f) g = andThen x fun a => andThen (f a) g
    rcases x with ⟨r, _ | a⟩
    · simp [andThen]
    · rcases h : f a with ⟨s, _ | b⟩ <;> simp [andThen, h]

/-- The same reads, with a failure reworded. -/
def mapError (f : Error → Error) (x : Traced ρ α) : Traced ρ α :=
  ⟨x.reads, x.outcome.mapError f⟩

@[simp] theorem outcome_mapError (f : Error → Error) (x : Traced ρ α) :
    (x.mapError f).outcome = x.outcome.mapError f := rfl

end Traced
end TimeSeries
