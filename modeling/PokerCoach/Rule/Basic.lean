import PokerCoach.Hand.Situation
import PokerCoach.Skill.Mastery
import PokerCoach.Text.Quoted
import Std.Data.ExtTreeMap

/-!
# Rules

For each skill one rule: whether a situation calls for the skill, and what an action taken there is
worth. A rule book holds at most one rule for a skill.
-/

namespace PokerCoach

open Std

structure Judgement where
  outcome : Outcome
  confidence : Float
  reasoning : String

namespace Judgement

def correct (confidence : Float) (reasoning : String) : Judgement :=
  ⟨.correct, confidence, reasoning⟩

def incorrect (confidence : Float) (reasoning : String) : Judgement :=
  ⟨.incorrect, confidence, reasoning⟩

def marginal (confidence : Float) (reasoning : String) : Judgement :=
  ⟨.marginal, confidence, reasoning⟩

/-- The verdict on missing or senseless data, which commits to little. -/
def insufficient (reasoning : String) : Judgement :=
  marginal 0.2 reasoning

end Judgement

structure Evaluation where
  skill : String
  action : Action
  outcome : Outcome
  confidence : Float
  reasoning : String
  deriving DecidableEq

/-- A confidence between 0 and 1; what is no finite number is no confidence at all. -/
def confidenceInUnit (x : Float) : Float :=
  if !x.isFinite || x < 0.0 then 0.0
  else if 1.0 < x then 1.0
  else x

def Evaluation.make (skill : String) (action : Action) (judgement : Judgement) : Evaluation :=
  { skill, action
    outcome := judgement.outcome
    confidence := confidenceInUnit judgement.confidence
    reasoning := judgement.reasoning }

structure Rule where
  skill : String
  triggers : Situation → Bool
  /-- Asked only where the rule triggers. -/
  judge : LiveAction → Situation → Judgement

structure RuleBook where
  rules : ExtTreeMap String Rule

namespace RuleBook

def empty : RuleBook := ⟨∅⟩

def register (book : RuleBook) (rule : Rule) : RuleBook :=
  ⟨book.rules.insert rule.skill rule⟩

def ofList (rules : List Rule) : RuleBook :=
  rules.foldl register empty

def find? (book : RuleBook) (skill : String) : Option Rule :=
  book.rules[skill]?

def contains (book : RuleBook) (skill : String) : Bool :=
  book.rules.contains skill

/-- The skills that have a rule, in alphabetical order. -/
def skills (book : RuleBook) : List String :=
  book.rules.keys

def size (book : RuleBook) : Nat :=
  book.rules.size

def description (book : RuleBook) : String :=
  "RuleRegistry \x7b rules: " ++ Text.quotedList book.skills ++ " \x7d"

/-- Whether the rule of a skill triggers; a skill without a rule never does. -/
def triggers (book : RuleBook) (spot : Situation) (skill : String) : Bool :=
  (book.find? skill).any fun rule => rule.triggers spot

/-- Those of the candidates that the situation calls for, in their order. -/
def classify (book : RuleBook) (spot : Situation) (candidates : List String) : List String :=
  candidates.filter (book.triggers spot)

end RuleBook

/-- No amount at all, or one below zero. -/
def isBadAmount (x : Float) : Bool :=
  !x.isFinite || x < 0.0

/-- The first part of a situation that no rule can work with. -/
def Situation.malformed? (spot : Situation) : Option String :=
  if isBadAmount spot.potTotal then some "pot total"
  else if isBadAmount spot.costToCall then some "cost to call"
  else if isBadAmount spot.potBeforeBet then some "pot before bet"
  else if spot.betToPot.any isBadAmount then some "bet to pot"
  else if spot.equity.any (!inUnit ·) then some "equity"
  else none

/-- The evaluation of an action for a skill. A skill without a rule, or whose rule does not trigger,
does not apply; a malformed situation is judged with little confidence. -/
def RuleBook.evaluate (book : RuleBook) (skill : String) (live : LiveAction)
    (spot : Situation) : Evaluation :=
  .make skill live.action <|
    match book.find? skill with
    | none => ⟨.notApplicable, 0.0, "unknown skill"⟩
    | some rule =>
        match spot.malformed? with
        | some part => .insufficient s!"context unusable: {part}"
        | none =>
            if rule.triggers spot then rule.judge live spot
            else ⟨.notApplicable, 0.0, "skill does not apply to this spot"⟩

@[simp, grind =]
theorem RuleBook.find?_register (book : RuleBook) (rule : Rule) (skill : String) :
    (book.register rule).find? skill =
      if rule.skill = skill then some rule else book.find? skill := by
  simp [find?, register, ExtTreeMap.getElem?_insert]

@[simp]
theorem RuleBook.skill_evaluate (book : RuleBook) (skill : String) (live : LiveAction)
    (spot : Situation) : (book.evaluate skill live spot).skill = skill := rfl

end PokerCoach
