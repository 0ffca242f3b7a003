import PokerCoach.Hand.Street

/-!
# Decisions

What the game tells about a decision: the spot, the hand so far, and the action that was taken.
-/

namespace PokerCoach

/-! ### Actions -/

inductive Action where
  | fold
  | check
  | call
  | bet
  | raise
  | allIn
  deriving DecidableEq, Repr

namespace Action

/-- Bets, raises and all-ins put in money that nobody asked for. -/
def isAggressive : Action → Bool
  | .bet | .raise | .allIn => true
  | _ => false

/-- Every action but a fold keeps the hand alive. -/
def continues : Action → Bool
  | .fold => false
  | _ => true

def name : Action → String
  | .fold => "fold"
  | .check => "check"
  | .call => "call"
  | .bet => "bet"
  | .raise => "raise"
  | .allIn => "all_in"

end Action

/-! ### Spots -/

structure PastAction where
  actor : String
  street : Street
  action : Action
  amount : Float := 0.0

/-- What the hand evaluator says about the cards of the acting player; several may hold. -/
structure HandFlags where
  premium : Bool := false
  trash : Bool := false
  strongMade : Bool := false
  marginalMade : Bool := false
  draw : Bool := false
  deriving DecidableEq, Repr, Inhabited

/-- No made hand of any strength. -/
def HandFlags.isUnmade (hand : HandFlags) : Bool :=
  !hand.strongMade && !hand.marginalMade

structure Decision where
  player : String
  hand : UInt32
  street : Street
  flags : HandFlags := {}
  /-- Chips needed to stay in. -/
  costToCall : Float := 0.0
  /-- The pot with every bet in it that the player faces. -/
  potTotal : Float := 0.0
  equity : Option Float := none
  history : List PastAction := []

/-- The action taken in a spot, which the history does not hold yet. -/
structure LiveAction where
  action : Action
  amount : Float := 0.0

end PokerCoach
