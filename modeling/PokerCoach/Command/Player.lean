import PokerCoach.Command.Arguments
import PokerCoach.Engine.Codec
import PokerCoach.Text.Basic
import PokerCoach.Decimal.Notation

/-!
# Showing and starting progress

The gates of a player and the skills in them, and where a new player starts.
-/

namespace PokerCoach

open Data Time

/-! ### Progress -/

/-- A gate as a player sees it. -/
structure GateStanding where
  number : UInt32
  name : String
  unlocked : Bool
  graduated : UInt32
  requiredReliable : UInt32
  unlockedAt : Option Instant

structure Standing where
  frontier : Option UInt32
  onboarded : Option Experience
  gates : List GateStanding
  skills : List SkillSummary

structure ProgressOutput where
  player : String
  result : Except Error Standing

def ProgressOutput.success (output : ProgressOutput) : Bool :=
  output.result.isOk

namespace Standing

def gate (record : PlayerRecord) (gate : Gate) : GateStanding :=
  { number := gate.number
    name := gate.name
    unlocked := record.isUnlocked gate.number
    graduated := UInt32.ofNat (record.graduated gate)
    requiredReliable := gate.requiredReliable
    unlockedAt := record.gates[gate.number]?.bind GateEntry.unlockedAt }

variable {σ : Type} [RecordStore σ]

def of (engine : Engine σ) (player : String) (now : Instant) :
    Except Error Standing × Engine σ :=
  let (found, engine) := engine.progress player now
  match found with
  | .error error => (.error error, engine)
  | .ok record =>
      let (skills, engine) := engine.skillSummaries player now
      (skills.map fun skills =>
        { frontier := record.frontier?
          onboarded := record.onboarded
          gates := engine.curriculum.gates.map (gate record)
          skills },
        engine)

end Standing

instance : ToData GateStanding where
  toData standing := .ofFields <|
    [("number", toData standing.number),
     ("name", toData standing.name),
     ("unlocked", toData standing.unlocked),
     ("graduated", toData standing.graduated),
     ("required_reliable", toData standing.requiredReliable)]
    ++ fieldIfSome "unlocked_at" (standing.unlockedAt.map Instant.minuteStamp)

instance : ToData ProgressOutput where
  toData output :=
    let standing := output.result.toOption
    .ofFields <|
      [("success", toData output.success), ("player_id", toData output.player)]
      ++ fieldIfSome "frontier_gate" (standing.bind Standing.frontier)
      ++ fieldIfSome "onboarded" (standing.bind Standing.onboarded)
      ++ [("gates", toData (standing.elim [] Standing.gates)),
          ("skills", toData (standing.elim [] Standing.skills))]
      ++ (match output.result with
          | .error error => [("error", toData error.message)]
          | .ok _ => [])

namespace ProgressOutput

def skillLine (skill : SkillSummary) : String :=
  let id := Text.padRight 26 skill.skill
  match skill.level with
  | none => s!"  {id} -"
  | some level =>
      let share := Text.padLeft 4 (Decimal.fixed 0 (skill.accuracy * 100.0))
      let window := Text.padLeft 2 (toString skill.windowLength)
      s!"  {id} {Text.padRight 11 level.name} {share}% over {window} "
        ++ s!"({skill.opportunities} total)  mode: {skill.mode.name}"

def gateLines (skills : List SkillSummary) (gate : GateStanding) : List String :=
  let status := if gate.unlocked then "unlocked" else "locked"
  [ "",
    s!"Gate {gate.number}: {gate.name} [{status}] "
      ++ s!"{gate.graduated}/{gate.requiredReliable} graduated" ]
    ++ (skills.filter fun skill => skill.gate == gate.number).map skillLine

def text (output : ProgressOutput) : String :=
  match output.result with
  | .error error => s!"Progress failed: {error.message}\n"
  | .ok standing =>
      let frontier := standing.frontier.elim "none" toString
      Text.unlines <|
        [s!"Player {output.player} (frontier gate: {frontier})"]
        ++ (standing.onboarded.map fun experience => s!"Onboarded as {experience.name}").toList
        ++ standing.gates.flatMap (gateLines standing.skills)

end ProgressOutput

/-! ### Onboarding -/

structure OnboardOutput where
  player : String
  experience : Experience
  result : Except Error (List Backfill)

namespace OnboardOutput

def success (output : OnboardOutput) : Bool :=
  output.result.isOk

def rowLine (row : Backfill) : String :=
  s!"  gate {row.gate}  {Text.padRight 26 row.skill} {row.level.name}"

def text (output : OnboardOutput) : String :=
  match output.result with
  | .error error => s!"Onboarding failed: {error.message}\n"
  | .ok rows =>
      Text.unlines <|
        (s!"Onboarded {output.player} as {output.experience.name} "
          ++ s!"({rows.length} skill(s) seeded)")
        :: rows.map rowLine

end OnboardOutput

instance : ToData OnboardOutput where
  toData output := .ofFields <|
    [("success", toData output.success),
     ("player_id", toData output.player),
     ("level", toData output.experience),
     ("seeded", toData (failOpen [] output.result))]
    ++ (match output.result with
        | .error error => [("error", toData error.message)]
        | .ok _ => [])

end PokerCoach
