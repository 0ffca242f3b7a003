import PokerCoach.Curriculum.Standard
import PokerCoach.Rule.Standard
import PokerCoach.Settings.Basic
import PokerCoach.Store.Basic
import PokerCoach.Journal.Log
import PokerCoach.Progress.Gate

/-!
# The engine

What stands between a game and the records of its players: a cache of records, the open sessions, a
journal, and a count of the failures of the store. An operation takes the time of its call and gives
the engine as it is afterwards.
-/

namespace PokerCoach

open Std Time

/-- A cached record. One that is not durable stands in for a record that could not be read, and is
never written. -/
structure Slot where
  record : PlayerRecord
  durable : Bool
  deriving DecidableEq

structure StorageHealth where
  consecutiveFailures : UInt32 := 0
  totalFailures : Nat := 0
  lastError : Option Error := none
  lastFailureAt : Option Instant := none

namespace StorageHealth

def isHealthy (health : StorageHealth) : Bool :=
  health.consecutiveFailures = 0

def success (health : StorageHealth) : StorageHealth :=
  { health with consecutiveFailures := 0 }

def failure (health : StorageHealth) (error : Error) (now : Instant) : StorageHealth :=
  { consecutiveFailures := countUp health.consecutiveFailures
    totalFailures := health.totalFailures + 1
    lastError := some error
    lastFailureAt := some now }

def track (health : StorageHealth) (error : Error) (now : Instant) : StorageHealth :=
  if error.isStorage then health.failure error now else health

end StorageHealth

structure Engine (σ : Type) where
  store : σ
  curriculum : Curriculum := .standard
  rules : RuleBook := .standard
  settings : Settings := .standard
  journal : Option Journal := none
  players : ExtTreeMap String Slot := ∅
  sessions : ExtTreeMap String Session := ∅
  health : StorageHealth := {}

namespace Engine

variable {σ : Type} [RecordStore σ]

def slot? (engine : Engine σ) (player : String) : Option Slot :=
  engine.players[player]?

def session? (engine : Engine σ) (session : String) : Option Session :=
  engine.sessions[session]?

/-- Appends to the journal, if there is one. An event that cannot be appended is lost. -/
def emit (engine : Engine σ) (happening : Happening) (now : Instant) : Engine σ :=
  { engine with
    journal := engine.journal.map fun journal =>
      failOpen journal (journal.append { time := now, happening }) }

def emitAll (engine : Engine σ) (happenings : List Happening) (now : Instant) : Engine σ :=
  happenings.foldl (fun engine happening => engine.emit happening now) engine

def track (engine : Engine σ) (error : Error) (now : Instant) : Engine σ :=
  { engine with health := engine.health.track error now }

def fetch (engine : Engine σ) (player : String) :
    Except Error (Option PlayerRecord) × Engine σ :=
  let (found, store) := RecordStore.get engine.store player
  (found, { engine with store })

/-- Writes a record to the store; a success and a failure both count for its health. -/
def write (engine : Engine σ) (record : PlayerRecord) (now : Instant) :
    Except Error Unit × Engine σ :=
  let (done, store) := RecordStore.put engine.store record
  match done with
  | .ok () => (.ok (), { engine with store, health := engine.health.success })
  | .error error => (.error error, { engine with store }.track error now)

/-- Writes a record; tells whether that worked. -/
def persist (engine : Engine σ) (record : PlayerRecord) (now : Instant) : Bool × Engine σ :=
  let (done, engine) := engine.write record now
  (done.isOk, engine)

def cache (engine : Engine σ) (player : String) (slot : Slot) : Engine σ :=
  { engine with players := engine.players.insert player slot }

end Engine

end PokerCoach
