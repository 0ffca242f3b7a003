import PokerCoach.Hand.Codec
import PokerCoach.Curriculum.Build
import PokerCoach.Curriculum.Standard
import PokerCoach.Settings.Load
import PokerCoach.Toml.Printer

/-!
# Loading curricula

A curriculum file stands in for the standard curriculum; a bad one does not stop the game.
-/

namespace PokerCoach

open Data

/-! ### Curricula as data trees -/

instance : ToData (EvidenceRule Float) where
  toData rule := .record
    [("min_opportunities", toData rule.minOpportunities),
     ("window_size", toData rule.windowSize),
     ("advancement_threshold", toData rule.advanceAt),
     ("regression_threshold", toData rule.regressAt)]

/-- Fields left out are those of the standard rule. -/
instance : OfData (EvidenceRule Float) where
  ofData dialect v := do
    let fs ← fields
      ["min_opportunities", "window_size", "advancement_threshold", "regression_threshold"] dialect v
    let standard := EvidenceRule.standard
    pure
      { minOpportunities := ← fs.defaulted "min_opportunities" standard.minOpportunities
        windowSize := ← fs.defaulted "window_size" standard.windowSize
        advanceAt := ← fs.defaulted "advancement_threshold" standard.advanceAt
        regressAt := ← fs.defaulted "regression_threshold" standard.regressAt }

instance : ToData Skill where
  toData skill := .record
    [("id", toData skill.id),
     ("name", toData skill.name),
     ("gate", toData skill.gate),
     ("phases", toData skill.streets),
     ("tags", toData skill.tags),
     ("evidence", toData skill.evidence)]

instance : OfData Skill where
  ofData dialect v := do
    let fs ← fields ["id", "name", "gate", "phases", "tags", "evidence"] dialect v
    pure
      { id := ← fs.required "id"
        name := ← fs.required "name"
        gate := ← fs.required "gate"
        streets := ← fs.defaulted "phases" []
        tags := ← fs.defaulted "tags" []
        evidence := ← fs.defaulted "evidence" .standard }

instance : ToData GateOutline where
  toData gate := .record
    [("number", toData gate.number),
     ("name", toData gate.name),
     ("skills", toData gate.skills),
     ("required_reliable", toData gate.requiredReliable)]

instance : OfData GateOutline where
  ofData dialect v := do
    let fs ← fields ["number", "name", "skills", "required_reliable"] dialect v
    pure
      { number := ← fs.required "number"
        name := ← fs.defaulted "name" ""
        skills := ← fs.required "skills"
        requiredReliable := ← fs.required "required_reliable" }

instance : ToData Syllabus where
  toData syllabus := .record
    [("gates", toData syllabus.gates), ("skills", toData syllabus.skills)]

instance : OfData Syllabus where
  ofData dialect v := do
    let fs ← fields ["gates", "skills"] dialect v
    pure
      { gates := ← fs.defaulted "gates" []
        skills := ← fs.defaulted "skills" [] }

/-! ### Files -/

def Syllabus.parse (text : String) : Except Error Syllabus :=
  match Toml.decode text.toList with
  | .ok syllabus => .ok syllabus
  | .error fault => .error (.serialization fault.message)

def Syllabus.print? (syllabus : Syllabus) : Option String :=
  Toml.print? (toData syllabus)

namespace Curriculum

def ofSyllabus (syllabus : Syllabus) : Except Error Curriculum :=
  match syllabus.curriculum with
  | .ok curriculum => .ok curriculum
  | .error fault => .error (.definition fault.message)

def parse (text : String) : Except Error Curriculum := do
  ofSyllabus (← Syllabus.parse text)

def ofFile (files : Files) (path : String) : Except Error Curriculum := do
  parse (← files.read path)

/-- The curriculum in a file, and the standard one if there is no good file. -/
def loadOrStandard (files : Files) (path : Option String) : Curriculum :=
  match path with
  | none => standard
  | some path => failOpen standard (ofFile files path)

end Curriculum

end PokerCoach
