import TimeSeries.Catalogue
import TimeSeries.Composition.Combine
import TimeSeries.Primitive

/-!
Evaluating a series by its identifier, through compositions of any depth. A series that is reached
from itself is refused, so the way down never meets an identifier twice and the evaluation ends
whatever the definitions are.
-/
namespace TimeSeries.Catalogue

/-- The registered identifiers that are not yet on the way down. -/
def unvisited (c : Catalogue) (path : List SeriesId) : List SeriesId :=
  c.registered.filter fun id => !path.contains id

theorem length_unvisited_lt {c : Catalogue} {path : List SeriesId} {id : SeriesId}
    (h : id ∈ c.registered) (hp : id ∉ path) :
    (c.unvisited (id :: path)).length < (c.unvisited path).length := by
  have step : c.unvisited (id :: path) = (c.unvisited path).filter (· ≠ id) := by
    simp only [unvisited, List.filter_filter]
    congr 1
    funext x
    by_cases hx : x = id <;> simp [hx]
  rw [step]
  refine List.length_filter_lt_length_iff_exists.2 ⟨id, ?_, by simp⟩
  simp [unvisited, h, hp]

/-- The definition under an identifier, which must have one. -/
def readDefinition (c : Catalogue) (id : SeriesId) : Traced Read Series :=
  .read (.definition id) <| match c.definition id with
    | .error detail => .error (.backingStore detail)
    | .ok none => .error (.unknownSeries id)
    | .ok (some series) => .ok series

theorem mem_registered_of_read {c : Catalogue} {id : SeriesId} {series : Series}
    (h : (c.readDefinition id).outcome = .ok series) : id ∈ c.registered := by
  cases hd : c.definition id with
  | error detail => simp [readDefinition, Traced.read, hd] at h
  | ok found =>
    cases found with
    | none => simp [readDefinition, Traced.read, hd] at h
    | some s => exact c.mem_registered hd

/-- Evaluate a series below the identifiers of a path, innermost first. A failure of a constituent
is tagged with it. -/
def evaluateBelow (c : Catalogue) (source : Source) (method : Method) (query : Query)
    (path : List SeriesId) (id : SeriesId) : Traced Read (List Observation) :=
  if _ : id ∈ path then .done (.error (.cyclicComposition id))
  else
    let found := c.readDefinition id
    match _ : found.outcome with
    | .error e => ⟨found.reads, .error e⟩
    | .ok (.primitive binding) =>
      let result := Primitive.call source binding method query
      ⟨found.reads ++ result.reads, result.outcome⟩
    | .ok (.composed composition) =>
      let result := composition.combineWith fun constituent =>
        (c.evaluateBelow source method query (id :: path) constituent).mapError
          (.constituent constituent)
      ⟨found.reads ++ result.reads, result.outcome⟩
termination_by (c.unvisited path).length
decreasing_by exact length_unvisited_lt (mem_registered_of_read ‹_›) ‹_›

/-- The answer of a series to a query. -/
def evaluate (c : Catalogue) (source : Source) (id : SeriesId) (method : Method)
    (query : Query) : Traced Read (List Observation) :=
  c.evaluateBelow source method query [] id

/-! ## With one path -/

/-- What is carried along an evaluation: the identifiers on the way down, innermost first, and the
reads so far. -/
structure Walk where
  path : List SeriesId
  reads : List Read

/-- The walks that are below a path. -/
abbrev Walk.Below (path : List SeriesId) := {w : Walk // w.path = path}

namespace Walk.Below
variable {path : List SeriesId}

def push (id : SeriesId) (w : Below path) : Below (id :: path) :=
  ⟨⟨id :: w.val.path, w.val.reads⟩, congrArg (id :: ·) w.property⟩

def pop {id : SeriesId} (w : Below (id :: path)) : Below path :=
  ⟨⟨w.val.path.tail, w.val.reads⟩, congrArg List.tail w.property⟩

def note (w : Below path) (read : Read) : Below path :=
  ⟨⟨w.val.path, w.val.reads ++ [read]⟩, w.property⟩

end Walk.Below

/-- Evaluate a series with a single path that its identifier is pushed to before it is answered and
popped from after it, whatever came of it. -/
def walk (c : Catalogue) (source : Source) (method : Method) (query : Query)
    (path : List SeriesId) (id : SeriesId) (w : Walk.Below path) :
    Except Error (List Observation) × Walk.Below path :=
  if _ : id ∈ w.val.path then (.error (.cyclicComposition id), w)
  else
    let found := c.readDefinition id
    let started := found.reads.foldl Walk.Below.note w
    match _ : found.outcome with
    | .error e => (.error e, started)
    | .ok series =>
      let answer : Stateful (Walk.Below (id :: path)) (List Observation) := match series with
        | .primitive binding => (Primitive.call source binding method query).noted Walk.Below.note
        | .composed composition => composition.combineWith fun constituent =>
          ExceptT.adapt (.constituent constituent) fun below =>
            c.walk source method query (id :: path) constituent below
      let (result, below) := answer (started.push id)
      (result, below.pop)
termination_by (c.unvisited path).length
decreasing_by exact length_unvisited_lt (mem_registered_of_read ‹_›) (w.property ▸ ‹_›)

end TimeSeries.Catalogue
