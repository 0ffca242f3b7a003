import PokerCoach.Progress.Row
import Std.Data.ExtTreeMap

/-!
# Player records

Everything that is kept of a player: a row for each skill and the gates that are open.
-/

namespace PokerCoach

open Std Time

/-- Whether and since when a gate is open. -/
structure GateEntry where
  unlocked : Bool := false
  unlockedAt : Option Instant := none
  deriving DecidableEq

/-- What new players say about themselves. -/
inductive Experience where
  | beginner
  | intermediate
  | advanced
  deriving DecidableEq, Repr

namespace Experience

def name : Experience → String
  | .beginner => "beginner"
  | .intermediate => "intermediate"
  | .advanced => "advanced"

/-- The level of a word in any case. No letter outside of ASCII has one of these as its lower-case
form, so that ASCII case is enough. -/
def ofWord? (word : String) : Option Experience :=
  match String.ofList (word.toList.map Char.toLower) with
  | "beginner" | "new" => some .beginner
  | "intermediate" => some .intermediate
  | "advanced" | "expert" => some .advanced
  | _ => none

end Experience

structure PlayerRecord where
  player : String
  skills : ExtTreeMap String SkillRow := ∅
  gates : ExtTreeMap UInt32 GateEntry := ∅
  /-- The level that onboarding was told, once it has run. -/
  onboarded : Option Experience := none
  createdAt : Instant
  updatedAt : Instant
  deriving DecidableEq

namespace PlayerRecord

def fresh (player : String) (now : Instant) : PlayerRecord :=
  { player, createdAt := now, updatedAt := now }

def row? (record : PlayerRecord) (skill : String) : Option SkillRow :=
  record.skills[skill]?

def isUnlocked (record : PlayerRecord) (gate : UInt32) : Bool :=
  record.gates[gate]?.any GateEntry.unlocked

def openGates (record : PlayerRecord) : List UInt32 :=
  (record.gates.toList.filter fun (_, entry) => entry.unlocked).map Prod.fst

def frontier? (record : PlayerRecord) : Option UInt32 :=
  record.openGates.getLast?

def touch (record : PlayerRecord) (now : Instant) : PlayerRecord :=
  { record with updatedAt := now }

def setRow (record : PlayerRecord) (skill : String) (row : SkillRow) : PlayerRecord :=
  { record with skills := record.skills.insert skill row }

def setGate (record : PlayerRecord) (gate : UInt32) (entry : GateEntry) : PlayerRecord :=
  { record with gates := record.gates.insert gate entry }

@[simp, grind =]
theorem row?_setRow (record : PlayerRecord) (skill id : String) (row : SkillRow) :
    (record.setRow skill row).row? id = if skill = id then some row else record.row? id := by
  simp [row?, setRow, ExtTreeMap.getElem?_insert]

@[simp, grind =]
theorem row?_touch (record : PlayerRecord) (now : Instant) (id : String) :
    (record.touch now).row? id = record.row? id := rfl

@[simp, grind =]
theorem isUnlocked_touch (record : PlayerRecord) (now : Instant) (gate : UInt32) :
    (record.touch now).isUnlocked gate = record.isUnlocked gate := rfl

@[simp, grind =]
theorem isUnlocked_setGate (record : PlayerRecord) (gate other : UInt32) (entry : GateEntry) :
    (record.setGate gate entry).isUnlocked other =
      if gate = other then entry.unlocked else record.isUnlocked other := by
  simp only [isUnlocked, setGate, ExtTreeMap.getElem?_insert, Std.compare_eq_iff_eq]
  split <;> simp

end PlayerRecord

end PokerCoach
