import PokerCoach.Engine.Sessions
import PokerCoach.Progress.Row

/-!
# Reading progress

What an engine tells about a player. A record that is not cached is read from the store; skills that
the curriculum has gained get their rows in the answer.
-/

namespace PokerCoach

open Std Time

structure SkillSummary where
  skill : String
  name : String
  gate : UInt32
  /-- None without a row. -/
  level : Option Mastery
  accuracy : Float
  opportunities : UInt32
  windowLength : Nat
  mode : CoachingMode

namespace Engine

variable {σ : Type} [RecordStore σ]

def progress (engine : Engine σ) (player : String) (now : Instant) :
    Except Error PlayerRecord × Engine σ :=
  match engine.slot? player with
  | some slot => (.ok slot.record, engine)
  | none =>
      let (found, engine) := engine.fetch player
      match found with
      | .error error => (.error error, engine)
      | .ok none => (.error (.playerNotFound player), engine)
      | .ok (some record) => (.ok (record.backfill engine.curriculum now).1, engine)

/-- How to coach a skill. A skill that the curriculum does not have is passed over in silence, and a
player without a record is taught. -/
def coachingMode (engine : Engine σ) (player skill : String) (now : Instant) :
    CoachingMode × Engine σ :=
  if (engine.curriculum.skill? skill).isNone then (.silent, engine)
  else
    let (found, engine) := engine.progress player now
    let engine :=
      match found with
      | .ok _ => engine
      | .error error => engine.track error now
    let row := found.toOption.bind fun record => record.row? skill
    (.ofRow row engine.settings.marginalCredit engine.settings.practicingSplit, engine)

def summaryOf (settings : Settings) (record : PlayerRecord) (skill : Skill) : SkillSummary :=
  let row := record.row? skill.id
  { skill := skill.id
    name := skill.name
    gate := skill.gate
    level := row.map SkillRow.level
    accuracy := rowAccuracy row settings.marginalCredit
    opportunities := row.elim 0 SkillRow.opportunities
    windowLength := row.elim 0 fun row => row.window.length
    mode := .ofRow row settings.marginalCredit settings.practicingSplit }

def skillSummaries (engine : Engine σ) (player : String) (now : Instant) :
    Except Error (List SkillSummary) × Engine σ :=
  let (found, engine) := engine.progress player now
  (found.map fun record => engine.curriculum.skills.map (summaryOf engine.settings record),
    engine)

end Engine

end PokerCoach
