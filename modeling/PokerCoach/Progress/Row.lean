import PokerCoach.Basic
import PokerCoach.Skill.Evidence
import PokerCoach.Time.Instant

/-!
# Skill rows

What is kept of a player for one skill: the level and the latest outcomes. Recording an outcome is
the only way in which a row changes, and every change of level is reported.
-/

namespace PokerCoach

open Time

structure SkillRow where
  skill : String
  level : Mastery
  /-- The latest outcomes that applied, the oldest first. -/
  window : List Outcome := []
  opportunities : UInt32 := 0
  createdAt : Instant
  updatedAt : Instant
  lastTransitionAt : Option Instant := none
  deriving DecidableEq

structure Transition (α : Type) where
  skill : String
  source : Mastery
  target : Mastery
  accuracy : α
  opportunities : UInt32
  deriving DecidableEq

def Transition.isAdvancement {α : Type} (transition : Transition α) : Bool :=
  transition.source.rank < transition.target.rank

/-- The last `size` of the entries, at least one. -/
def latest {α : Type} (size : UInt64) (entries : List α) : List α :=
  entries.drop (entries.length - max size.toNat 1)

theorem length_latest {α : Type} (size : UInt64) (entries : List α) :
    (latest size entries).length = min entries.length (max size.toNat 1) := by
  simp only [latest, List.length_drop]
  omega

namespace SkillRow

def fresh (skill : String) (level : Mastery) (now : Instant) : SkillRow :=
  { skill, level, createdAt := now, updatedAt := now }

/-- Takes an outcome that applies into the window. -/
def push (row : SkillRow) (outcome : Outcome) (windowSize : UInt64) (now : Instant) : SkillRow :=
  { row with
    window := latest windowSize (row.window ++ [outcome])
    opportunities := countUp row.opportunities
    updatedAt := now }

variable {α : Type} [Share α]

def verdict (row : SkillRow) (rule : EvidenceRule α) (marginalCredit : α) : Mastery :=
  row.level.next (windowedAccuracy row.window marginalCredit) row.opportunities rule

def settle (row : SkillRow) (rule : EvidenceRule α) (marginalCredit : α) (now : Instant) :
    SkillRow × Option (Transition α) :=
  let target := row.verdict rule marginalCredit
  if target = row.level then (row, none)
  else
    ({ row with level := target, lastTransitionAt := some now },
      some
        { skill := row.skill
          source := row.level
          target
          accuracy := windowedAccuracy row.window marginalCredit
          opportunities := row.opportunities })

/-- Records an outcome; one that does not apply leaves the row as it is. -/
def record (row : SkillRow) (outcome : Outcome) (rule : EvidenceRule α) (marginalCredit : α)
    (now : Instant) : SkillRow × Option (Transition α) :=
  if outcome.isApplicable then
    (row.push outcome rule.windowSize now).settle rule marginalCredit now
  else (row, none)

def recordAll (row : SkillRow) (rule : EvidenceRule α) (marginalCredit : α) :
    List (Outcome × Instant) → SkillRow × List (Transition α)
  | [] => (row, [])
  | (outcome, now) :: rest =>
      let (row, transition) := row.record outcome rule marginalCredit now
      let (row, transitions) := recordAll row rule marginalCredit rest
      (row, transition.toList ++ transitions)

end SkillRow

/-! ### Coaching modes

How much is said about a skill: a player who is new to it is taught, one who masters it is left in
peace. -/

inductive CoachingMode where
  | learn
  | compete
  | silent
  deriving DecidableEq, Repr

def CoachingMode.name : CoachingMode → String
  | .learn => "learn"
  | .compete => "compete"
  | .silent => "silent"

/-- The mode for a level and an accuracy; with practice the accuracy decides. -/
def CoachingMode.select (level : Option Mastery) (accuracy practicingSplit : Float) :
    CoachingMode :=
  match level with
  | none | some .introduced => .learn
  | some .practicing =>
      if accuracy.isFinite && practicingSplit ≤ accuracy then .compete else .learn
  | some .reliable => .compete
  | some .automatic => .silent

def rowAccuracy (row : Option SkillRow) (marginalCredit : Float) : Float :=
  row.elim 0.0 fun row => windowedAccuracy row.window marginalCredit

def CoachingMode.ofRow (row : Option SkillRow) (marginalCredit practicingSplit : Float) :
    CoachingMode :=
  .select (row.map SkillRow.level) (rowAccuracy row marginalCredit) practicingSplit

end PokerCoach
