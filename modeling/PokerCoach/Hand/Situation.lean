import PokerCoach.Hand.Decision

/-!
# Situations

What the rules read of a decision: cleaned amounts, the price of staying in, and who was aggressive
on which street.
-/

namespace PokerCoach

structure Situation where
  street : Street := .preflop
  flags : HandFlags := {}
  potTotal : Float := 0.0
  costToCall : Float := 0.0
  potBeforeBet : Float := 0.0
  equity : Option Float := none
  /-- The equity at which staying in costs nothing on average; none where it is free. -/
  requiredEquity : Option Float := none
  facingBet : Bool := false
  playerAggression : StreetFlags := {}
  opponentAggression : StreetFlags := {}
  opponentDoubleBarrel : Bool := false
  betToPot : Option Float := none

/-- Negative amounts and amounts that are no finite number count as nothing. -/
def chips (amount : Float) : Float :=
  if amount.isFinite && 0.0 < amount then amount else 0.0

def inUnit (x : Float) : Bool :=
  0.0 ≤ x && x ≤ 1.0

namespace Decision

/-- The streets on which somebody whom `who` picks was aggressive. -/
def aggression (decision : Decision) (who : String → Bool) : StreetFlags :=
  .ofList <|
    (decision.history.filter fun past => past.action.isAggressive && who past.actor).map
      PastAction.street

def playerAggression (decision : Decision) : StreetFlags :=
  decision.aggression (· == decision.player)

def opponentAggression (decision : Decision) : StreetFlags :=
  decision.aggression (· != decision.player)

end Decision

/-- The size of a bet over the pot it goes into. -/
def LiveAction.betToPot (live : LiveAction) (pot : Float) : Option Float :=
  if live.action.isAggressive && live.amount.isFinite && 0.0 < live.amount && 0.0 < pot then
    some (live.amount / pot)
  else none

/-- The situation of a decision, with the live action if it is known. -/
def Decision.situation (decision : Decision) (live : Option LiveAction) : Situation :=
  let pot := chips decision.potTotal
  let cost := chips decision.costToCall
  { street := decision.street
    flags := decision.flags
    potTotal := pot
    costToCall := cost
    potBeforeBet := if 0.0 < pot - cost then pot - cost else 0.0
    equity := decision.equity.filter inUnit
    requiredEquity := if 0.0 < cost then some (cost / (pot + cost)) else none
    facingBet := 0.0 < cost
    playerAggression := decision.playerAggression
    opponentAggression := decision.opponentAggression
    opponentDoubleBarrel := decision.opponentAggression.anyConsecutive decision.street
    betToPot := live.bind (·.betToPot pot) }

/-- Whether the player was aggressive on the street before this one. -/
def Situation.ledLastStreet (spot : Situation) : Bool :=
  spot.street.previous?.any spot.playerAggression.get

end PokerCoach
