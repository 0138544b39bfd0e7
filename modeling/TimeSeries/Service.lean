import TimeSeries.Store

/-!
A store together with the clock that stamps what is recorded in it. Only a recording moves the clock
on, and it does so even if the store refuses it.
-/
namespace TimeSeries

structure Service where
  database : Database
  clock : Clock

namespace Service

variable {α : Type}

/-- An empty store at the start of 2024. -/
def fresh : Service := ⟨Store.fresh, .start⟩

/-- Carry out a step of the store. -/
def perform (s : Service) (action : StoreAction α) : Except Error α × Service :=
  let (result, database) := action.run s.database
  (result, { s with database := database })

def createTable (s : Service) (table : String) : Except Error Unit × Service :=
  s.perform (Store.createPrimitiveTable table)

def registerPrimitive (s : Service) (id : SeriesId) (metadata : Metadata) :
    Except Error SeriesInfo × Service :=
  s.perform (Store.registerPrimitive s.clock.now id metadata)

def registerComposed (s : Service) (id : SeriesId) (metadata : Metadata) :
    Except Error SeriesInfo × Service :=
  s.perform (Store.registerComposed s.clock.now id metadata)

/-- Record an observation now. -/
def record (s : Service) (id : SeriesId) (observation : Observation) :
    Except Error Unit × Service :=
  { s with clock := s.clock.tick }.perform (Store.record id observation s.clock.now)

/-- The same database behind a new store. -/
def reopen (s : Service) : Service := { s with database := Store.opened s.database }

end Service
end TimeSeries
