import PokerCoach.Hand.Situation
import PokerCoach.Data.Decode

/-!
# Decisions as data trees
-/

namespace PokerCoach

open Data

instance : ToData Street := ⟨fun s => .text s.name⟩

instance : OfData Street := ⟨ofName (Street.all.map fun s => (s.name, s))⟩

instance : ToData Action := ⟨fun a => .text a.name⟩

instance : OfData Action :=
  ⟨ofName <|
    [.fold, .check, .call, .bet, .raise, .allIn].map fun (a : Action) => (a.name, a)⟩

/-- The flags in the order of the streets. -/
instance : ToData StreetFlags := ⟨fun flags => toData (Street.all.map flags.get)⟩

instance : OfData StreetFlags where
  ofData dialect v := do
    match ← (ofData dialect v : Except Fault (List Bool)) with
    | [preflop, flop, turn, river] => pure ⟨preflop, flop, turn, river⟩
    | _ => .error (.expected "four truth values")

instance : ToData HandFlags where
  toData hand := .record
    [("premium", toData hand.premium),
     ("trash", toData hand.trash),
     ("strong_made", toData hand.strongMade),
     ("marginal_made", toData hand.marginalMade),
     ("draw", toData hand.draw)]

instance : OfData HandFlags where
  ofData dialect v := do
    let fs ← fields ["premium", "trash", "strong_made", "marginal_made", "draw"] dialect v
    pure
      { premium := ← fs.defaulted "premium" false
        trash := ← fs.defaulted "trash" false
        strongMade := ← fs.defaulted "strong_made" false
        marginalMade := ← fs.defaulted "marginal_made" false
        draw := ← fs.defaulted "draw" false }

instance : ToData PastAction where
  toData past := .record
    [("actor", toData past.actor),
     ("phase", toData past.street),
     ("action", toData past.action),
     ("amount", toData past.amount)]

instance : OfData PastAction where
  ofData dialect v := do
    let fs ← fields ["actor", "phase", "action", "amount"] dialect v
    pure
      { actor := ← fs.required "actor"
        street := ← fs.required "phase"
        action := ← fs.required "action"
        amount := ← fs.defaulted "amount" 0.0 }

instance : ToData Decision where
  toData decision := .record
    [("player_id", toData decision.player),
     ("hand_number", toData decision.hand),
     ("phase", toData decision.street),
     ("hand", toData decision.flags),
     ("cost_to_call", toData decision.costToCall),
     ("pot_total", toData decision.potTotal),
     ("equity", toData decision.equity),
     ("history", toData decision.history)]

instance : OfData Decision where
  ofData dialect v := do
    let fs ← fields
      ["player_id", "hand_number", "phase", "hand", "cost_to_call", "pot_total", "equity",
        "history"] dialect v
    pure
      { player := ← fs.required "player_id"
        hand := ← fs.required "hand_number"
        street := ← fs.required "phase"
        flags := ← fs.defaulted "hand" {}
        costToCall := ← fs.defaulted "cost_to_call" 0.0
        potTotal := ← fs.defaulted "pot_total" 0.0
        equity := ← fs.defaulted "equity" none
        history := ← fs.defaulted "history" [] }

instance : ToData LiveAction where
  toData live := .record [("action", toData live.action), ("amount", toData live.amount)]

instance : OfData LiveAction where
  ofData dialect v := do
    let fs ← fields ["action", "amount"] dialect v
    pure { action := ← fs.required "action", amount := ← fs.defaulted "amount" 0.0 }

instance : ToData Situation where
  toData spot := .record
    [("phase", toData spot.street),
     ("hand", toData spot.flags),
     ("pot_total", toData spot.potTotal),
     ("cost_to_call", toData spot.costToCall),
     ("pot_before_bet", toData spot.potBeforeBet),
     ("equity", toData spot.equity),
     ("required_equity", toData spot.requiredEquity),
     ("facing_bet", toData spot.facingBet),
     ("player_aggression", toData spot.playerAggression),
     ("opponent_aggression", toData spot.opponentAggression),
     ("opponent_double_barrel", toData spot.opponentDoubleBarrel),
     ("bet_to_pot", toData spot.betToPot)]

instance : OfData Situation where
  ofData dialect v := do
    let fs ← fields
      ["phase", "hand", "pot_total", "cost_to_call", "pot_before_bet", "equity",
        "required_equity", "facing_bet", "player_aggression", "opponent_aggression",
        "opponent_double_barrel", "bet_to_pot"] dialect v
    pure
      { street := ← fs.required "phase"
        flags := ← fs.required "hand"
        potTotal := ← fs.required "pot_total"
        costToCall := ← fs.required "cost_to_call"
        potBeforeBet := ← fs.required "pot_before_bet"
        equity := ← fs.optional "equity"
        requiredEquity := ← fs.optional "required_equity"
        facingBet := ← fs.required "facing_bet"
        playerAggression := ← fs.required "player_aggression"
        opponentAggression := ← fs.required "opponent_aggression"
        opponentDoubleBarrel := ← fs.required "opponent_double_barrel"
        betToPot := ← fs.optional "bet_to_pot" }

end PokerCoach
