/-!
# Mastery

The four levels of a skill, in a line, and the verdicts on single actions that move a player along
it.
-/

namespace PokerCoach

inductive Mastery where
  | introduced
  | practicing
  | reliable
  | automatic
  deriving DecidableEq, Repr, Inhabited

namespace Mastery

def all : List Mastery := [.introduced, .practicing, .reliable, .automatic]

def rank : Mastery → Nat
  | .introduced => 0
  | .practicing => 1
  | .reliable => 2
  | .automatic => 3

/-- One level up; the highest stays. -/
def advance : Mastery → Mastery
  | .introduced => .practicing
  | .practicing => .reliable
  | .reliable => .automatic
  | .automatic => .automatic

/-- One level down; the lowest stays. -/
def regress : Mastery → Mastery
  | .introduced => .introduced
  | .practicing => .introduced
  | .reliable => .practicing
  | .automatic => .reliable

/-- Counts toward the next gate. -/
def isGraduated : Mastery → Bool
  | .reliable | .automatic => true
  | _ => false

def name : Mastery → String
  | .introduced => "introduced"
  | .practicing => "practicing"
  | .reliable => "reliable"
  | .automatic => "automatic"

end Mastery

/-- The verdict on one action for one skill. -/
inductive Outcome where
  | correct
  | incorrect
  | marginal
  | notApplicable
  deriving DecidableEq, Repr

namespace Outcome

/-- Reviews show the worst first. -/
def reviewRank : Outcome → Nat
  | .incorrect => 0
  | .marginal => 1
  | .correct => 2
  | .notApplicable => 3

def isApplicable : Outcome → Bool
  | .notApplicable => false
  | _ => true

def name : Outcome → String
  | .correct => "correct"
  | .incorrect => "incorrect"
  | .marginal => "marginal"
  | .notApplicable => "not_applicable"

end Outcome

end PokerCoach
