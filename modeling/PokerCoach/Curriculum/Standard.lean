import PokerCoach.Curriculum.Basic

/-!
# The standard curriculum

Three gates: the fundamentals, the discipline after the flop, and aggression.
-/

namespace PokerCoach

namespace Skill

def foldTrashPreflop : Skill :=
  { id := "fold_trash_preflop"
    name := "Fold trash hands preflop"
    gate := 1
    streets := [.preflop]
    tags := ["preflop", "discipline"] }

def raisePremiumPreflop : Skill :=
  { id := "raise_premium_preflop"
    name := "Raise premium hands preflop"
    gate := 1
    streets := [.preflop]
    tags := ["preflop", "aggression"] }

def potOddsCall : Skill :=
  { id := "pot_odds_call"
    name := "Call or fold by pot odds"
    gate := 1
    streets := [.flop, .turn, .river]
    tags := ["math", "pot-odds"] }

def valueBetSizing : Skill :=
  { id := "value_bet_sizing"
    name := "Size value bets"
    gate := 2
    streets := [.flop, .turn, .river]
    tags := ["sizing", "value"] }

def foldToDoubleBarrel : Skill :=
  { id := "fold_to_double_barrel"
    name := "Fold marginal hands to a double barrel"
    gate := 2
    streets := [.turn, .river]
    tags := ["hand-reading", "discipline"] }

def followThrough : Skill :=
  { id := "follow_through"
    name := "Follow through on aggression"
    gate := 2
    streets := [.flop, .turn, .river]
    tags := ["planning", "aggression"] }

def semiBluffDraws : Skill :=
  { id := "semi_bluff_draws"
    name := "Semi-bluff strong draws"
    gate := 3
    streets := [.flop, .turn]
    tags := ["draws", "aggression"] }

def checkBehindWeakRiver : Skill :=
  { id := "check_behind_weak_river"
    name := "Check back weak rivers"
    gate := 3
    streets := [.river]
    tags := ["river", "discipline"] }

end Skill

def Curriculum.standard : Curriculum where
  gates :=
    [{ number := 1
       name := "Fundamentals"
       requiredReliable := 2
       skills := [.foldTrashPreflop, .raisePremiumPreflop, .potOddsCall] },
     { number := 2
       name := "Postflop discipline"
       requiredReliable := 2
       skills := [.valueBetSizing, .foldToDoubleBarrel, .followThrough] },
     { number := 3
       name := "Aggression"
       requiredReliable := 1
       skills := [.semiBluffDraws, .checkBehindWeakRiver] }]

end PokerCoach
