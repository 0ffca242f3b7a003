import PokerCoach.Hand.Street
import PokerCoach.Skill.Evidence

/-!
# Curricula

Skills are taught in groups, the gates, which a player passes one after the other. A curriculum
holds its gates in that order and in each gate the skills in theirs.
-/

namespace PokerCoach

structure Skill where
  id : String
  name : String
  /-- The number of the gate that teaches the skill. -/
  gate : UInt32
  /-- The streets on which the skill can come up; none named means all. -/
  streets : List Street := []
  tags : List String := []
  evidence : EvidenceRule Float := .standard

def Skill.appliesOn (skill : Skill) (street : Street) : Bool :=
  skill.streets.isEmpty || skill.streets.contains street

/-- A gate as it is written down: it names its skills. -/
structure GateOutline where
  number : UInt32
  name : String := ""
  skills : List String
  /-- How many of the skills have to be graduated before the next gate opens. -/
  requiredReliable : UInt32
  deriving DecidableEq

/-- A gate with its skills in teaching order. -/
structure Gate where
  number : UInt32
  name : String
  requiredReliable : UInt32
  skills : List Skill

structure Syllabus where
  gates : List GateOutline := []
  skills : List Skill := []

/-- Gates in ascending order. -/
structure Curriculum where
  gates : List Gate
  deriving Inhabited

def Gate.skillIds (gate : Gate) : List String :=
  gate.skills.map Skill.id

def Gate.outline (gate : Gate) : GateOutline :=
  { number := gate.number
    name := gate.name
    skills := gate.skillIds
    requiredReliable := gate.requiredReliable }

namespace Curriculum

/-- Every skill, by gate and then in teaching order. -/
def skills (curriculum : Curriculum) : List Skill :=
  curriculum.gates.flatMap Gate.skills

def skillCount (curriculum : Curriculum) : Nat :=
  curriculum.skills.length

def skill? (curriculum : Curriculum) (id : String) : Option Skill :=
  curriculum.skills.find? (·.id == id)

def gate? (curriculum : Curriculum) (number : UInt32) : Option Gate :=
  curriculum.gates.find? (·.number == number)

def gateOf? (curriculum : Curriculum) (id : String) : Option Gate :=
  (curriculum.skill? id).bind fun skill => curriculum.gate? skill.gate

def nextGate? (curriculum : Curriculum) (number : UInt32) : Option Gate :=
  curriculum.gate? (number + 1)

/-- The highest gate number, 0 if there is no gate. -/
def lastGate (curriculum : Curriculum) : UInt32 :=
  (curriculum.gates.getLast?.map Gate.number).getD 0

def syllabus (curriculum : Curriculum) : Syllabus :=
  { gates := curriculum.gates.map Gate.outline, skills := curriculum.skills }

end Curriculum

end PokerCoach
