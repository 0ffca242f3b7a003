import PokerCoach.Rule.Basic
import PokerCoach.Decimal.Notation

/-!
# The standard rules

One rule for each skill of the standard curriculum. Textbook spots are judged with confidence 0.9,
spots where reasonable players differ with 0.7; an action that makes no sense in the spot is judged
as missing data is.
-/

namespace PokerCoach.Rule

def clear : Float := 0.9

def debatable : Float := 0.7

def outOfPlace (live : LiveAction) : Judgement :=
  .insufficient s!"{live.action.name} does not fit this spot"

def percent (share : Float) : String :=
  Decimal.fixed 0 (share * 100.0) ++ "%"

def foldTrashPreflop : Rule where
  skill := "fold_trash_preflop"
  triggers spot := spot.street = .preflop && spot.flags.trash
  judge live spot :=
    match live.action with
    | .fold => .correct clear "folded a trash hand"
    | .check =>
        if spot.facingBet then outOfPlace live
        else .correct clear "took the free look with a trash hand"
    | .call => .incorrect clear "called with a hand that should be folded"
    | .bet | .raise | .allIn =>
        .marginal debatable "raised a trash hand; a bluff is a choice, not a fundamentals error"

def raisePremiumPreflop : Rule where
  skill := "raise_premium_preflop"
  triggers spot := spot.street = .preflop && spot.flags.premium
  judge live _ :=
    match live.action with
    | .bet | .raise | .allIn => .correct clear "raised a premium hand"
    | .call | .check => .marginal debatable "flatted a premium hand; raising builds the pot"
    | .fold => .incorrect clear "folded a premium hand"

/-- Staying in is right exactly when the equity covers the price. -/
def judgeOdds (live : LiveAction) (equity required : Float) : Judgement :=
  let detail := s!"equity {percent equity} vs {percent required} needed"
  let pricedIn : Bool := required ≤ equity
  match live.action.continues, pricedIn with
  | true, true => .correct clear s!"continued with the odds: {detail}"
  | false, false => .correct clear s!"folded without the odds: {detail}"
  | true, false => .incorrect clear s!"continued without the odds: {detail}"
  | false, true => .incorrect clear s!"folded despite the odds: {detail}"

def potOddsCall : Rule where
  skill := "pot_odds_call"
  triggers spot :=
    spot.street.isPostflop && spot.facingBet && !spot.flags.strongMade && !spot.flags.premium
  judge live spot :=
    match spot.equity, spot.requiredEquity with
    | some equity, some required =>
        if live.action = .check then outOfPlace live else judgeOdds live equity required
    | _, _ => .insufficient "no equity estimate for this decision"

/-- Half the pot to the pot is right, a third to one and a half is bearable. -/
def judgeSize (ratio : Float) : Judgement :=
  let detail := s!"bet {percent ratio} of the pot"
  if 0.5 ≤ ratio && ratio ≤ 1.0 then .correct clear s!"{detail}; good value sizing"
  else if (0.33 ≤ ratio && ratio < 0.5) || (1.0 < ratio && ratio ≤ 1.5) then
    .marginal debatable s!"{detail}; workable but off target"
  else .incorrect clear s!"{detail}; too far from half-pot to pot"

def valueBetSizing : Rule where
  skill := "value_bet_sizing"
  triggers spot := spot.street.isPostflop && spot.flags.strongMade && !spot.facingBet
  judge live spot :=
    match live.action with
    | .check => .marginal debatable "checked a strong hand (slow-play)"
    | .fold => .incorrect clear "folded a strong hand for free"
    | .call => outOfPlace live
    | .bet | .raise | .allIn =>
        match spot.betToPot with
        | some ratio => judgeSize ratio
        | none => .insufficient "bet size unknown"

def foldToDoubleBarrel : Rule where
  skill := "fold_to_double_barrel"
  triggers spot :=
    spot.opponentDoubleBarrel && spot.facingBet && spot.flags.marginalMade
      && !spot.flags.strongMade
  judge live _ :=
    match live.action with
    | .fold => .correct clear "released a marginal pair to a double barrel"
    | .check => outOfPlace live
    | .call | .bet | .raise | .allIn =>
        .incorrect clear "kept paying off a double barrel with a marginal pair"

def followThrough : Rule where
  skill := "follow_through"
  triggers spot := spot.street.isPostflop && spot.ledLastStreet
  judge live spot :=
    if spot.facingBet then
      match live.action with
      | .fold => .incorrect clear "gave up the initiative to a single bet"
      | .check => outOfPlace live
      | _ => .correct clear "stayed in after taking the lead last street"
    else
      match live.action with
      | .bet | .raise | .allIn => .correct clear "followed through with a bet"
      | .check => .marginal debatable "checked after leading the previous street"
      | .fold => .incorrect clear "folded when checking was free"
      | .call => outOfPlace live

def semiBluffDraws : Rule where
  skill := "semi_bluff_draws"
  triggers spot :=
    (spot.street = .flop || spot.street = .turn) && spot.flags.draw && spot.flags.isUnmade
      && !spot.facingBet
  judge live _ :=
    match live.action with
    | .bet | .raise | .allIn => .correct clear "semi-bluffed a draw"
    | .check => .marginal debatable "checked a draw instead of semi-bluffing"
    | .fold => .incorrect clear "folded a draw when checking was free"
    | .call => outOfPlace live

def checkBehindWeakRiver : Rule where
  skill := "check_behind_weak_river"
  triggers spot :=
    spot.street = .river && !spot.facingBet && spot.flags.isUnmade && !spot.flags.premium
  judge live _ :=
    match live.action with
    | .check => .correct clear "checked back a weak river hand"
    | .bet | .raise | .allIn => .marginal debatable "bluffed the river with air"
    | .fold => .incorrect clear "folded when checking was free"
    | .call => outOfPlace live

end Rule

def RuleBook.standard : RuleBook :=
  .ofList
    [Rule.foldTrashPreflop, Rule.raisePremiumPreflop, Rule.potOddsCall, Rule.valueBetSizing,
      Rule.foldToDoubleBarrel, Rule.followThrough, Rule.semiBluffDraws,
      Rule.checkBehindWeakRiver]

end PokerCoach
