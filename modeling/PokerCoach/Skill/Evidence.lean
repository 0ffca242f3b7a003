import PokerCoach.Skill.Mastery
import PokerCoach.Decimal.Notation

/-!
# Evidence

How the latest outcomes of a skill decide its level: the share of them that earned credit is held
against two thresholds with a gap between them. The shares are doubles when the program runs; the
definitions hold for every kind of number that a share can be measured in.
-/

namespace PokerCoach

/-- Numbers in which a share is measured. -/
class Share (α : Type) where
  ofNat : Nat → α
  add : α → α → α
  div : α → α → α
  le : α → α → Bool
  isFinite : α → Bool

instance : Share Float where
  ofNat := Float.ofNat
  add := (· + ·)
  div := (· / ·)
  le a b := a ≤ b
  isFinite := Float.isFinite

instance : Share Rat where
  ofNat n := n
  add := (· + ·)
  div := (· / ·)
  le a b := a ≤ b
  isFinite _ := true

variable {α : Type} [Share α]

/-- The number kept between 0 and 1; what is no number stays none. -/
def Share.clamp (a : α) : α :=
  if !Share.le (Share.ofNat 0) a && Share.le a (Share.ofNat 0) then Share.ofNat 0
  else if !Share.le a (Share.ofNat 1) && Share.le (Share.ofNat 1) a then Share.ofNat 1
  else a

/-- When the evidence moves a skill. -/
structure EvidenceRule (α : Type) where
  /-- Opportunities before any move. -/
  minOpportunities : UInt32
  /-- The number of latest outcomes that count. -/
  windowSize : UInt64
  /-- The share at or above which the skill advances. -/
  advanceAt : α
  /-- The share at or below which it regresses. -/
  regressAt : α
  deriving DecidableEq, Repr

def EvidenceRule.standard : EvidenceRule Float :=
  { minOpportunities := 6, windowSize := 30, advanceAt := 0.70, regressAt := 0.50 }

instance : Inhabited (EvidenceRule Float) := ⟨.standard⟩

inductive RuleFault where
  | noOpportunities
  | noWindow
  | outsideUnit
  | noGap (advanceAt regressAt : Float)
  deriving DecidableEq, Repr

def RuleFault.message : RuleFault → String
  | .noOpportunities => "min_opportunities must be at least 1"
  | .noWindow => "window_size must be at least 1"
  | .outsideUnit => "thresholds must be within [0, 1]"
  | .noGap advanceAt regressAt =>
      s!"advancement_threshold ({Decimal.plain advanceAt}) must be greater than "
        ++ s!"regression_threshold ({Decimal.plain regressAt})"

def EvidenceRule.fault? (rule : EvidenceRule Float) : Option RuleFault :=
  let inUnit (x : Float) : Bool := 0.0 ≤ x && x ≤ 1.0
  if rule.minOpportunities = 0 then some .noOpportunities
  else if rule.windowSize = 0 then some .noWindow
  else if !inUnit rule.advanceAt || !inUnit rule.regressAt then some .outsideUnit
  else if rule.advanceAt ≤ rule.regressAt then some (.noGap rule.advanceAt rule.regressAt)
  else none

/-- What an outcome earns; one that does not apply earns nothing and does not count. -/
def Outcome.credit? (marginalCredit : α) : Outcome → Option α
  | .correct => some (Share.ofNat 1)
  | .marginal => some marginalCredit
  | .incorrect => some (Share.ofNat 0)
  | .notApplicable => none

/-- The credit earned over the outcomes that apply, summed in their order; none gives 0. -/
def windowedAccuracy (window : List Outcome) (marginalCredit : α) : α :=
  let credits := window.filterMap (Outcome.credit? (Share.clamp marginalCredit))
  if credits.isEmpty then Share.ofNat 0
  else Share.div (credits.foldl Share.add (Share.ofNat 0)) (Share.ofNat credits.length)

/-- The level after an outcome. Too few opportunities, or an accuracy that is no finite number,
change nothing. -/
def Mastery.next (level : Mastery) (accuracy : α) (opportunities : UInt32)
    (rule : EvidenceRule α) : Mastery :=
  if opportunities < rule.minOpportunities || !Share.isFinite accuracy then level
  else if Share.le rule.advanceAt accuracy then level.advance
  else if Share.le accuracy rule.regressAt then level.regress
  else level

end PokerCoach
