import PokerCoach.Engine.Sessions

/-!
# Deciding

What happens when a player has acted: the skills that the situation calls for are evaluated one
after the other, and each evaluation that applies goes into the row of its skill, may open the next
gate, and is written at once.
-/

namespace PokerCoach

open Std Time

structure DecisionReport where
  player : String
  hand : UInt32
  triggered : List String := []
  evaluations : List Evaluation := []
  transitions : List (Transition Float) := []
  unlocked : List UInt32 := []
  backfilled : List Backfill := []
  persisted : Bool := true

structure Turn (σ : Type) where
  engine : Engine σ
  slot : Slot
  report : DecisionReport

namespace Turn

variable {σ : Type} [RecordStore σ]

/-- Appends to the journal, if the record is durable. -/
def emitAll (turn : Turn σ) (happenings : List Happening) (now : Instant) : Turn σ :=
  if turn.slot.durable then { turn with engine := turn.engine.emitAll happenings now } else turn

def recordOutcome (turn : Turn σ) (skill : Skill) (outcome : Outcome) (now : Instant) :
    Turn σ :=
  let record := turn.slot.record
  let row := (record.row? skill.id).getD (.fresh skill.id .introduced now)
  let (row, transition) :=
    row.record outcome skill.evidence turn.engine.settings.marginalCredit now
  let record := (record.setRow skill.id row).touch now
  { turn with
    slot := { turn.slot with record }
    report :=
      { turn.report with transitions := turn.report.transitions ++ transition.toList } }
    |>.emitAll (transition.toList.map (.ofTransition record.player)) now

def openGate (turn : Turn σ) (skill : String) (now : Instant) : Turn σ :=
  let curriculum := turn.engine.curriculum
  match turn.slot.record.checkGate curriculum skill now with
  | (_, none) => turn
  | (record, some gate) =>
      let (record, rows) := record.backfill curriculum now
      { turn with
        slot := { turn.slot with record }
        report :=
          { turn.report with
            unlocked := turn.report.unlocked ++ [gate]
            backfilled := turn.report.backfilled ++ rows } }
        |>.emitAll (.gateUnlocked record.player gate :: rows.map (.ofBackfill record.player)) now

def save (turn : Turn σ) (now : Instant) : Turn σ :=
  if turn.slot.durable then
    let (saved, engine) := turn.engine.persist turn.slot.record now
    { turn with
      engine
      report := { turn.report with persisted := turn.report.persisted && saved } }
  else turn

def judge (session : String) (live : LiveAction) (spot : Situation) (now : Instant)
    (turn : Turn σ) (skill : String) : Turn σ :=
  let evaluation := turn.engine.rules.evaluate skill live spot
  let turn :=
    { turn with
      report := { turn.report with evaluations := turn.report.evaluations ++ [evaluation] } }
  if evaluation.outcome.isApplicable then
    match turn.engine.curriculum.skill? skill with
    | none => turn
    | some definition =>
        let turn :=
          ((turn.recordOutcome definition evaluation.outcome now).openGate skill now).save now
        { turn with
          engine := turn.engine.remember session turn.report.hand evaluation }
  else turn

end Turn

namespace Engine

variable {σ : Type} [RecordStore σ]

/-- The skills of open gates that can come up on a street, in teaching order. -/
def candidates (engine : Engine σ) (record : PlayerRecord) (street : Street) : List String :=
  (engine.curriculum.skills.filter fun skill =>
    record.isUnlocked skill.gate && skill.appliesOn street).map Skill.id

/-- The decision as it stands once the record is there, before any evaluation. -/
def beginTurn (engine : Engine σ) (decision : Decision) (spot : Situation) (now : Instant) :
    Turn σ :=
  let (loaded, engine) := engine.load decision.player now
  { engine
    slot := loaded.slot
    report :=
      { player := decision.player
        hand := decision.hand
        triggered :=
          engine.rules.classify spot (engine.candidates loaded.slot.record spot.street)
        unlocked := loaded.unlocked
        backfilled := loaded.backfilled
        persisted := loaded.persisted && loaded.slot.durable } }

/-- Evaluates what a player did. It never fails, and opens the session if need be. -/
def decide (engine : Engine σ) (session : String) (decision : Decision) (live : LiveAction)
    (now : Instant) : DecisionReport × Engine σ :=
  let spot := decision.situation (some live)
  let engine := engine.ensureSession session decision.player now
  let turn := engine.beginTurn decision spot now
  let turn := turn.report.triggered.foldl (Turn.judge session live spot now) turn
  (turn.report, turn.engine.cache decision.player turn.slot)

end Engine

end PokerCoach
