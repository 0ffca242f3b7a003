import PokerCoach.Curriculum.Basic

/-!
# Building curricula

A syllabus gives a curriculum if every skill has a consistent evidence rule, the gates are numbered
1, 2, 3 and so on, and each skill is listed exactly once, by the gate that it names.
-/

namespace PokerCoach

inductive SyllabusFault where
  | rule (skill : String) (fault : RuleFault)
  | repeatedSkill (skill : String)
  | tooManyRequired (gate required listed : Nat)
  | repeatedGate
  | gap (found expected : Nat)
  | undefinedSkill (gate : Nat) (skill : String)
  | listedTwice (skill : String) (first second : Nat)
  | wrongGate (skill : String) (declared listed : Nat)
  | unlisted (skill : String)
  deriving DecidableEq, Repr

def SyllabusFault.message : SyllabusFault → String
  | .rule skill fault => s!"skill '{skill}': {fault.message}"
  | .repeatedSkill skill => s!"duplicate skill id '{skill}'"
  | .tooManyRequired gate required listed =>
      s!"gate {gate} requires {required} reliable skills but has only {listed}"
  | .repeatedGate => "duplicate gate number"
  | .gap found expected =>
      s!"gate numbers must be contiguous from 1, found gate {found} where {expected} was expected"
  | .undefinedSkill gate skill => s!"gate {gate} lists undefined skill '{skill}'"
  | .listedTwice skill first second =>
      s!"skill '{skill}' is listed in gates {first} and {second}"
  | .wrongGate skill declared listed =>
      s!"skill '{skill}' declares gate {declared} but is listed in gate {listed}"
  | .unlisted skill => s!"skill '{skill}' is not listed in any gate"

namespace Syllabus

/-- The first skill with a bad rule or with the identifier of one before it. -/
def skillFault? (seen : List String) : List Skill → Option SyllabusFault
  | [] => none
  | skill :: rest =>
      match skill.evidence.fault? with
      | some fault => some (.rule skill.id fault)
      | none =>
          if seen.contains skill.id then some (.repeatedSkill skill.id)
          else skillFault? (skill.id :: seen) rest

/-- The first gate that requires more skills than it lists or has the number of one before it. -/
def gateFault? (seen : List UInt32) : List GateOutline → Option SyllabusFault
  | [] => none
  | gate :: rest =>
      if gate.skills.length < gate.requiredReliable.toNat then
        some (.tooManyRequired gate.number.toNat gate.requiredReliable.toNat gate.skills.length)
      else if seen.contains gate.number then some .repeatedGate
      else gateFault? (gate.number :: seen) rest

def sortGates (gates : List GateOutline) : List GateOutline :=
  gates.mergeSort fun a b => decide (a.number ≤ b.number)

/-- The first of the gates that is not the `expected` one. -/
def numberFault? (expected : Nat) : List GateOutline → Option SyllabusFault
  | [] => none
  | gate :: rest =>
      if gate.number.toNat = expected then numberFault? (expected + 1) rest
      else some (.gap gate.number.toNat expected)

/-- The skills that a gate lists; `owners` holds the gates of the skills listed before. -/
def listSkills (skills : List Skill) (number : UInt32) :
    List (String × UInt32) → List String → Except SyllabusFault (List Skill)
  | _, [] => .ok []
  | owners, id :: rest =>
      match skills.find? (·.id == id) with
      | none => .error (.undefinedSkill number.toNat id)
      | some skill =>
          match owners.lookup id with
          | some first => .error (.listedTwice id first.toNat number.toNat)
          | none =>
              if skill.gate = number then do
                let listed ← listSkills skills number ((id, number) :: owners) rest
                pure (skill :: listed)
              else .error (.wrongGate id skill.gate.toNat number.toNat)

def listGates (skills : List Skill) :
    List (String × UInt32) → List GateOutline → Except SyllabusFault (List Gate)
  | _, [] => .ok []
  | owners, outline :: rest => do
      let listed ← listSkills skills outline.number owners outline.skills
      let gate : Gate :=
        { number := outline.number
          name := outline.name
          requiredReliable := outline.requiredReliable
          skills := listed }
      let gates ← listGates skills (outline.skills.map (·, outline.number) ++ owners) rest
      pure (gate :: gates)

def unlisted? (skills : List Skill) (gates : List Gate) : Option Skill :=
  skills.find? fun skill => !(gates.flatMap Gate.skillIds).contains skill.id

/-- The curriculum of a syllabus, or the first fault: those of the skills before those of the gates,
these before those of the lists. -/
def curriculum (syllabus : Syllabus) : Except SyllabusFault Curriculum :=
  match skillFault? [] syllabus.skills with
  | some fault => .error fault
  | none =>
      match gateFault? [] syllabus.gates with
      | some fault => .error fault
      | none =>
          let outlines := sortGates syllabus.gates
          match numberFault? 1 outlines with
          | some fault => .error fault
          | none => do
              let gates ← listGates syllabus.skills [] outlines
              match unlisted? syllabus.skills gates with
              | some skill => .error (.unlisted skill.id)
              | none => pure ⟨gates⟩

end Syllabus

end PokerCoach
