import PokerCoach.Rule.Standard
import Mathlib.Tactic.Common

/-!
# Decisive rules

A rule is decisive if every action that it judges counts for or against its skill. The standard
rules are, so that with them a skill that comes up is practiced, whatever the player did and however
little the situation says.
-/

namespace PokerCoach

namespace Rule

def IsDecisive (rule : Rule) : Prop :=
  ∀ live spot, (rule.judge live spot).outcome.isApplicable = true

end Rule

namespace Judgement

variable (confidence : Float) (reasoning : String)

@[simp]
theorem isApplicable_correct : (correct confidence reasoning).outcome.isApplicable = true := rfl

@[simp]
theorem isApplicable_incorrect : (incorrect confidence reasoning).outcome.isApplicable = true := rfl

@[simp]
theorem isApplicable_marginal : (marginal confidence reasoning).outcome.isApplicable = true := rfl

@[simp]
theorem isApplicable_insufficient : (insufficient reasoning).outcome.isApplicable = true := rfl

end Judgement

namespace RuleBook

theorem find?_foldl_register {rules : List Rule} {book : RuleBook} {skill : String} {rule : Rule}
    (hfind : (rules.foldl register book).find? skill = some rule) :
    rule ∈ rules ∨ book.find? skill = some rule := by
  induction rules generalizing book with
  | nil => exact .inr hfind
  | cons first rest ih =>
      rcases ih hfind with hrest | hearly
      · exact .inl (List.mem_cons_of_mem first hrest)
      · rw [find?_register] at hearly
        by_cases hskill : first.skill = skill
        · rw [if_pos hskill, Option.some.injEq] at hearly
          exact .inl (hearly ▸ List.mem_cons_self)
        · rw [if_neg hskill] at hearly
          exact .inr hearly

theorem mem_of_find?_ofList {rules : List Rule} {skill : String} {rule : Rule}
    (hfind : (ofList rules).find? skill = some rule) : rule ∈ rules := by
  rcases find?_foldl_register hfind with hmem | hempty
  · exact hmem
  · simp [find?, empty] at hempty

/-- A skill that is called for is judged, if its rule is decisive; a malformed situation counts as
well. -/
theorem isApplicable_evaluate {book : RuleBook} {spot : Situation} {skill : String}
    (htriggers : book.triggers spot skill = true)
    (hdecisive : ∀ rule, book.find? skill = some rule → rule.IsDecisive) (live : LiveAction) :
    (book.evaluate skill live spot).outcome.isApplicable = true := by
  obtain ⟨rule, hfind, hrule⟩ := (Option.any_eq_true _ _).mp htriggers
  unfold evaluate Evaluation.make
  simp only [hfind]
  cases spot.malformed? with
  | some part => exact Judgement.isApplicable_insufficient _
  | none =>
      simp only [hrule, if_true]
      exact hdecisive rule hfind live spot

end RuleBook

/-! ### The standard rules -/

namespace Rule

@[simp]
theorem isApplicable_outOfPlace (live : LiveAction) :
    (outOfPlace live).outcome.isApplicable = true := rfl

theorem isDecisive_foldTrashPreflop : foldTrashPreflop.IsDecisive := by
  intro live spot
  dsimp only [foldTrashPreflop]
  cases live.action with
  | check =>
      dsimp only
      split <;> simp
  | _ => simp

theorem isDecisive_raisePremiumPreflop : raisePremiumPreflop.IsDecisive := by
  intro live spot
  dsimp only [raisePremiumPreflop]
  cases live.action <;> simp

theorem isApplicable_judgeOdds (live : LiveAction) (equity required : Float) :
    (judgeOdds live equity required).outcome.isApplicable = true := by
  unfold judgeOdds
  dsimp only
  split <;> simp

theorem isDecisive_potOddsCall : potOddsCall.IsDecisive := by
  intro live spot
  dsimp only [potOddsCall]
  split
  · split
    · exact isApplicable_outOfPlace live
    · exact isApplicable_judgeOdds live _ _
  · exact Judgement.isApplicable_insufficient _

theorem isApplicable_judgeSize (ratio : Float) :
    (judgeSize ratio).outcome.isApplicable = true := by
  unfold judgeSize
  dsimp only
  split
  · simp
  · split <;> simp

theorem isDecisive_valueBetSizing : valueBetSizing.IsDecisive := by
  intro live spot
  dsimp only [valueBetSizing]
  cases spot.betToPot with
  | none => cases live.action <;> simp
  | some ratio => cases live.action <;> simp [isApplicable_judgeSize]

theorem isDecisive_foldToDoubleBarrel : foldToDoubleBarrel.IsDecisive := by
  intro live spot
  dsimp only [foldToDoubleBarrel]
  cases live.action <;> simp

theorem isDecisive_followThrough : followThrough.IsDecisive := by
  intro live spot
  dsimp only [followThrough]
  split
  · cases live.action <;> simp
  · cases live.action <;> simp

theorem isDecisive_semiBluffDraws : semiBluffDraws.IsDecisive := by
  intro live spot
  dsimp only [semiBluffDraws]
  cases live.action <;> simp

theorem isDecisive_checkBehindWeakRiver : checkBehindWeakRiver.IsDecisive := by
  intro live spot
  dsimp only [checkBehindWeakRiver]
  cases live.action <;> simp

end Rule

theorem RuleBook.isDecisive_of_find?_standard {skill : String} {rule : Rule}
    (hfind : standard.find? skill = some rule) : rule.IsDecisive := by
  have hmem := mem_of_find?_ofList hfind
  simp only [List.mem_cons, List.not_mem_nil, or_false] at hmem
  rcases hmem with rfl | rfl | rfl | rfl | rfl | rfl | rfl | rfl
  · exact Rule.isDecisive_foldTrashPreflop
  · exact Rule.isDecisive_raisePremiumPreflop
  · exact Rule.isDecisive_potOddsCall
  · exact Rule.isDecisive_valueBetSizing
  · exact Rule.isDecisive_foldToDoubleBarrel
  · exact Rule.isDecisive_followThrough
  · exact Rule.isDecisive_semiBluffDraws
  · exact Rule.isDecisive_checkBehindWeakRiver

end PokerCoach
