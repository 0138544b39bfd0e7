import TimeSeries.Composition
import TimeSeries.Observation

/-!
Definitions of series by identifier. A catalogue answers for one identifier at a time and may fail
to; a registry is a catalogue held as a map, which never fails.
-/
namespace TimeSeries

inductive SeriesKind where
  | primitive
  | composed
  deriving DecidableEq

def SeriesKind.name : SeriesKind → String
  | primitive => "primitive"
  | composed => "composed"

/-- The definition of a series. -/
inductive Series where
  | primitive (binding : Binding)
  | composed (composition : Composition)
  deriving DecidableEq

def Series.kind : Series → SeriesKind
  | primitive _ => .primitive
  | composed _ => .composed

/-- A registered series, as it is listed. -/
structure SeriesInfo where
  id : SeriesId
  kind : SeriesKind
  deriving DecidableEq

/-- Looks definitions up. Only finitely many identifiers have one. -/
structure Catalogue where
  definition : SeriesId → Except (Option String) (Option Series)
  registered : List SeriesId
  mem_registered : ∀ {id series}, definition id = .ok (some series) → id ∈ registered

/-- Definitions by identifier. -/
abbrev Registry := SortedMap SeriesId Series

namespace Registry

/-- Identifiers are given out once. -/
def register (r : Registry) (id : SeriesId) (series : Series) : Except Error Registry :=
  if r.contains id then .error (.seriesExists id) else .ok (SortedMap.insert r id series)

def catalogue (r : Registry) : Catalogue where
  definition id := .ok (r.find? id)
  registered := r.keys
  mem_registered h :=
    List.mem_map.2 ⟨_, SortedMap.find?_eq_some_iff.1 (Except.ok.inj h), rfl⟩

end Registry
end TimeSeries
