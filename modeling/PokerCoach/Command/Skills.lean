import PokerCoach.Command.Arguments
import PokerCoach.Curriculum.Load
import PokerCoach.Text.Basic
import PokerCoach.Decimal.Notation

/-!
# Listing the curriculum

What is listed is the curriculum that an engine would run with; a check only tells whether the
configured file is good.
-/

namespace PokerCoach

open Data

structure Listing where
  skillCount : Nat
  gates : List Gate
  /-- Why the configured file is not used. -/
  warning : Option String := none

structure SkillsOutput where
  /-- The curriculum file, or that there is none. -/
  source : String
  result : Except Error Listing

namespace SkillsOutput

def success (output : SkillsOutput) : Bool :=
  output.result.isOk

def builtIn : String := "built-in"

def ofCurriculum (curriculum : Curriculum) (source : String) (check : Bool)
    (warning : Option String) : SkillsOutput :=
  { source
    result := .ok
      { skillCount := curriculum.skillCount
        gates := if check then [] else curriculum.gates
        warning } }

def warningText (path : String) (error : Error) : String :=
  s!"curriculum {path} is invalid ({error.message}); using built-in curriculum"

def run (files : Files) (path : Option String) (check : Bool) : SkillsOutput :=
  match path with
  | none => ofCurriculum .standard builtIn check none
  | some path =>
      match Curriculum.ofFile files path with
      | .ok curriculum => ofCurriculum curriculum path check none
      | .error error =>
          if check then { source := path, result := .error error }
          else ofCurriculum .standard builtIn false (some (warningText path error))

def evidenceLine (rule : EvidenceRule Float) : String :=
  let margin := Text.padRight 28 ""
  s!"{margin} min {rule.minOpportunities} | window {rule.windowSize} | "
    ++ s!"advance >= {Decimal.fixed 2 rule.advanceAt} | "
    ++ s!"regress <= {Decimal.fixed 2 rule.regressAt}"

def skillLines (skill : Skill) : List String :=
  let streets :=
    if skill.streets.isEmpty then "any" else "/".intercalate (skill.streets.map Street.name)
  [s!"  {Text.padRight 26 skill.id} {skill.name} [{streets}]", evidenceLine skill.evidence]

def gateLines (gate : Gate) : List String :=
  [ "",
    s!"Gate {gate.number}: {gate.name} (needs {gate.requiredReliable} reliable to advance)" ]
    ++ gate.skills.flatMap skillLines

def text (output : SkillsOutput) (check : Bool) : String :=
  match output.result with
  | .error error => s!"Curriculum {output.source} is invalid: {error.message}\n"
  | .ok listing =>
      if check then
        s!"Curriculum {output.source} is valid ({listing.skillCount} skills)\n"
      else
        Text.unlines <|
          (listing.warning.map fun warning => s!"warning: {warning}").toList
          ++ [s!"Curriculum: {output.source} ({listing.skillCount} skills)"]
          ++ listing.gates.flatMap gateLines

end SkillsOutput

def listedSkill (skill : Skill) : Value :=
  .record
    [("id", toData skill.id),
     ("name", toData skill.name),
     ("phases", toData skill.streets),
     ("tags", toData skill.tags),
     ("evidence", toData skill.evidence)]

def listedGate (gate : Gate) : Value :=
  .record
    [("number", toData gate.number),
     ("name", toData gate.name),
     ("required_reliable", toData gate.requiredReliable),
     ("skills", .list (gate.skills.map listedSkill))]

instance : ToData SkillsOutput where
  toData output :=
    let listing := output.result.toOption
    .ofFields <|
      [("success", toData output.success),
       ("source", toData output.source),
       ("skill_count", toData (listing.elim 0 Listing.skillCount)),
       ("gates", .list ((listing.elim [] Listing.gates).map listedGate))]
      ++ fieldIfSome "warning" (listing.bind Listing.warning)
      ++ (match output.result with
          | .error error => [("error", toData error.message)]
          | .ok _ => [])

end PokerCoach
