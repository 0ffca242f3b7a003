import PokerCoach.Engine.Loading

/-!
# Sessions of an engine
-/

namespace PokerCoach

open Std Time

namespace Engine

variable {σ : Type} [RecordStore σ]

def setSession (engine : Engine σ) (id : String) (session : Session) : Engine σ :=
  { engine with sessions := engine.sessions.insert id session }

def startSession (engine : Engine σ) (id player : String) (now : Instant) :
    Except Error Unit × Engine σ :=
  if engine.sessions.contains id then (.error (.sessionActive id), engine)
  else
    (.ok (), engine.setSession id (.start id player engine.settings.cadence now))

def ensureSession (engine : Engine σ) (id player : String) (now : Instant) : Engine σ :=
  if engine.sessions.contains id then engine
  else engine.setSession id (.start id player engine.settings.cadence now)

def remember (engine : Engine σ) (id : String) (hand : UInt32) (evaluation : Evaluation) :
    Engine σ :=
  match engine.session? id with
  | some session => engine.setSession id (session.record hand evaluation).1
  | none => engine

/-- Closes a session and gives its summary. The record of its owner leaves the cache with the last
session of that player. -/
def endSession (engine : Engine σ) (id : String) (now : Instant) :
    Except Error SessionSummary × Engine σ :=
  match engine.session? id with
  | none => (.error (.sessionNotFound id), engine)
  | some session =>
      let engine := { engine with sessions := engine.sessions.erase id }
      let plays := engine.sessions.values.any fun other => other.owner == session.owner
      (.ok session.summary, if plays then engine else engine.release session.owner now)

def askSession {α : Type} (engine : Engine σ) (id : String) (ask : Session → α) :
    Except Error α :=
  match engine.session? id with
  | some session => .ok (ask session)
  | none => .error (.sessionNotFound id)

def sessionSummary (engine : Engine σ) (id : String) : Except Error SessionSummary :=
  engine.askSession id Session.summary

def handReview (engine : Engine σ) (id : String) (hand : UInt32) :
    Except Error (List Evaluation) :=
  engine.askSession id fun session => session.review hand

/-- Whether coaching may be shown; not in a session that is not open. -/
def maySurface (engine : Engine σ) (id skill : String) (hand : UInt32) : Bool :=
  failOpen false (engine.askSession id fun session => session.maySurface skill hand)

def noteSurfaced (engine : Engine σ) (id skill : String) (hand : UInt32) :
    Except Error Unit × Engine σ :=
  match engine.session? id with
  | some session => (.ok (), engine.setSession id (session.noteSurfaced skill hand))
  | none => (.error (.sessionNotFound id), engine)

end Engine

end PokerCoach
