import PokerCoach.Progress.Record
import PokerCoach.Curriculum.Basic

/-!
# Gates

A gate opens once enough skills of the gate before it are graduated, and no gate ever closes. Skills
of open gates get rows as soon as the curriculum has them.
-/

namespace PokerCoach

open Time

structure Backfill where
  skill : String
  gate : UInt32
  level : Mastery
  deriving DecidableEq

/-- Opens a gate, unless it is open; the entry of a locked gate is there afterwards either way. -/
def GateEntry.unlock (entry : GateEntry) (now : Instant) : GateEntry :=
  if entry.unlocked then entry else { unlocked := true, unlockedAt := some now }

namespace PlayerRecord

def unlock (record : PlayerRecord) (gate : UInt32) (now : Instant) : PlayerRecord :=
  record.setGate gate ((record.gates[gate]?.getD {}).unlock now)

/-- Opens the first gate; tells whether it was locked. -/
def ensureEntryGate (record : PlayerRecord) (now : Instant) : PlayerRecord × Bool :=
  if record.isUnlocked 1 then (record, false) else ((record.unlock 1 now).touch now, true)

def isActive (record : PlayerRecord) (curriculum : Curriculum) (skill : String) : Bool :=
  (curriculum.skill? skill).any fun skill => record.isUnlocked skill.gate

def graduated (record : PlayerRecord) (gate : Gate) : Nat :=
  (gate.skillIds.filterMap record.row?).countP fun row => row.level.isGraduated

/-- The gate after that of a skill, if it is locked and the skills before it suffice to open it. -/
def earnedGate? (record : PlayerRecord) (curriculum : Curriculum) (skill : String) :
    Option UInt32 := do
  let gate ← curriculum.gateOf? skill
  let next ← curriculum.nextGate? gate.number
  if record.isUnlocked next.number ∨ record.graduated gate < gate.requiredReliable.toNat then none
  else some next.number

def checkGate (record : PlayerRecord) (curriculum : Curriculum) (skill : String)
    (now : Instant) : PlayerRecord × Option UInt32 :=
  match record.earnedGate? curriculum skill with
  | some gate => ((record.unlock gate now).touch now, some gate)
  | none => (record, none)

def addRow (record : PlayerRecord) (skill : String) (level : Mastery) (now : Instant) :
    PlayerRecord :=
  if (record.row? skill).isSome then record else record.setRow skill (.fresh skill level now)

/-- The skills of a gate that have no row and get one if the gate is open. A player who has passed
the gate practices them already. -/
def missingIn (record : PlayerRecord) (gate : Gate) : List Backfill :=
  if record.isUnlocked gate.number then
    let level : Mastery :=
      if record.isUnlocked (gate.number + 1) then .practicing else .introduced
    (gate.skillIds.filter fun skill => (record.row? skill).isNone).map fun skill =>
      { skill, gate := gate.number, level }
  else []

def missing (record : PlayerRecord) (curriculum : Curriculum) : List Backfill :=
  curriculum.gates.flatMap record.missingIn

def addRows (record : PlayerRecord) (rows : List Backfill) (now : Instant) : PlayerRecord :=
  rows.foldl (fun record row => record.addRow row.skill row.level now) record

def backfill (record : PlayerRecord) (curriculum : Curriculum) (now : Instant) :
    PlayerRecord × List Backfill :=
  match record.missing curriculum with
  | [] => (record, [])
  | rows => ((record.addRows rows now).touch now, rows)

def startGate (curriculum : Curriculum) : Experience → UInt32
  | .beginner => 1
  | .intermediate => min 2 (max curriculum.lastGate 1)
  | .advanced => max curriculum.lastGate 1

/-- The level of a skill taught at a gate for a player who starts at another. -/
def startLevel (start gate : UInt32) : Mastery :=
  if start = gate then .introduced
  else if start - gate = 1 then .practicing
  else .reliable

def startRows (curriculum : Curriculum) (start : UInt32) : List Backfill :=
  (curriculum.gates.takeWhile fun gate => decide (gate.number ≤ start)).flatMap fun gate =>
    gate.skillIds.map fun skill =>
      { skill, gate := gate.number, level := startLevel start gate.number }

/-- Opens the gates up to where a new player starts and seeds the rows of their skills; none if the
player has rows or was onboarded before. -/
def onboard? (record : PlayerRecord) (curriculum : Curriculum) (experience : Experience)
    (now : Instant) : Option (PlayerRecord × List Backfill) :=
  if record.onboarded.isSome ∨ !record.skills.isEmpty then none
  else
    let start := startGate curriculum experience
    let rows := startRows curriculum start
    let gates := curriculum.gates.takeWhile fun gate => decide (gate.number ≤ start)
    let record := gates.foldl (fun record gate => record.unlock gate.number now) record
    let record := record.addRows rows now
    some ({ record with onboarded := some experience, updatedAt := now }, rows)

end PlayerRecord

end PokerCoach
