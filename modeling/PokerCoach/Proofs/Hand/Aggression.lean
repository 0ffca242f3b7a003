import PokerCoach.Hand.Situation
import Mathlib.Tactic.Common

/-!
# Aggression in the history

The flags of a situation say who was aggressive on which street. They depend only on which
aggressive actions the history holds, not on how often or in which order it holds them.
-/

namespace PokerCoach

theorem Action.isAggressive_iff {action : Action} :
    action.isAggressive = true ↔ action = .bet ∨ action = .raise ∨ action = .allIn := by
  cases action <;> simp [isAggressive]

theorem Street.previous?_eq_some_iff {earlier later : Street} :
    later.previous? = some earlier ↔ earlier.rank + 1 = later.rank := by
  refine ⟨rank_previous?, fun hnext => ?_⟩
  cases earlier <;> cases later <;> simp_all [rank, previous?]

theorem StreetFlags.anyConsecutive_iff {flags : StreetFlags} {upto : Street} :
    flags.anyConsecutive upto = true ↔
      ∃ earlier later, earlier.rank + 1 = later.rank ∧ later ≤ upto ∧
        flags.get earlier = true ∧ flags.get later = true := by
  simp only [anyConsecutive, List.any_eq_true, Bool.and_eq_true, decide_eq_true_eq,
    Option.any_eq_true, Street.previous?_eq_some_iff]
  constructor
  · rintro ⟨later, -, hupto, earlier, hnext, hearlier, hlater⟩
    exact ⟨earlier, later, hnext, hupto, hearlier, hlater⟩
  · rintro ⟨earlier, later, hnext, hupto, hearlier, hlater⟩
    exact ⟨later, later.mem_all, hupto, earlier, hnext, hearlier, hlater⟩

namespace Decision

variable (decision : Decision) {history : List PastAction} (live : Option LiveAction)

theorem get_aggression_iff {who : String → Bool} {street : Street} :
    (decision.aggression who).get street = true ↔
      ∃ past ∈ decision.history, past.street = street ∧ who past.actor = true ∧
        past.action.isAggressive = true := by
  rw [aggression, StreetFlags.get_ofList, decide_eq_true_iff, List.mem_map]
  simp only [List.mem_filter, Bool.and_eq_true]
  constructor
  · rintro ⟨past, ⟨hmem, haggressive, hwho⟩, hstreet⟩
    exact ⟨past, hmem, hstreet, hwho, haggressive⟩
  · rintro ⟨past, hmem, hstreet, hwho, haggressive⟩
    exact ⟨past, ⟨hmem, haggressive, hwho⟩, hstreet⟩

/-- Histories with the same aggressive actions on a street show the same aggression there. -/
theorem get_aggression_congr {street : Street}
    (hsame : ∀ past, past.action.isAggressive = true → past.street = street →
      (past ∈ history ↔ past ∈ decision.history)) (who : String → Bool) :
    ({ decision with history }.aggression who).get street =
      (decision.aggression who).get street := by
  rw [Bool.eq_iff_iff, get_aggression_iff, get_aggression_iff]
  constructor
  · rintro ⟨past, hmem, hstreet, hwho, haggressive⟩
    exact ⟨past, (hsame past haggressive hstreet).mp hmem, hstreet, hwho, haggressive⟩
  · rintro ⟨past, hmem, hstreet, hwho, haggressive⟩
    exact ⟨past, (hsame past haggressive hstreet).mpr hmem, hstreet, hwho, haggressive⟩

theorem situation_congr
    (hsame : ∀ past, past.action.isAggressive = true →
      (past ∈ history ↔ past ∈ decision.history)) :
    { decision with history }.situation live = decision.situation live := by
  have haggression (who : String → Bool) :
      { decision with history }.aggression who = decision.aggression who :=
    StreetFlags.ext_get fun street =>
      decision.get_aggression_congr (fun past haggressive _ => hsame past haggressive) who
  simp only [situation, playerAggression, opponentAggression, haggression]

theorem opponentDoubleBarrel_iff :
    (decision.situation live).opponentDoubleBarrel = true ↔
      ∃ earlier later, earlier.rank + 1 = later.rank ∧ later ≤ decision.street ∧
        decision.opponentAggression.get earlier = true ∧
        decision.opponentAggression.get later = true :=
  StreetFlags.anyConsecutive_iff

/-- What happens on streets to come makes no double barrel. -/
theorem opponentDoubleBarrel_congr
    (hsame : ∀ past, past.action.isAggressive = true → past.street ≤ decision.street →
      (past ∈ history ↔ past ∈ decision.history)) :
    ({ decision with history }.situation live).opponentDoubleBarrel =
      (decision.situation live).opponentDoubleBarrel := by
  have haggression {street : Street} (hstreet : street ≤ decision.street) :
      { decision with history }.opponentAggression.get street =
        decision.opponentAggression.get street := by
    refine decision.get_aggression_congr (fun past haggressive hpast => ?_) _
    exact hsame past haggressive (hpast ▸ hstreet)
  rw [Bool.eq_iff_iff, opponentDoubleBarrel_iff, opponentDoubleBarrel_iff]
  refine exists₂_congr fun earlier later => and_congr_right fun hnext => ?_
  apply and_congr_right
  intro hupto
  have hbefore : earlier ≤ decision.street := by
    have hrank : later.rank ≤ decision.street.rank := hupto
    exact (show earlier.rank ≤ decision.street.rank by omega)
  rw [haggression hbefore, haggression hupto]

/-- Any decision with any history. A street is flagged for the player, or for the opponents, exactly
if one of their actions on it puts in money that nobody asked for, and there is a double barrel
exactly if the opponents have such actions on two adjacent streets that have begun. So neither the
order nor the number of equal actions matters, nor do folds, checks and calls, nor for the double
barrel what the history holds of later streets. The live action shows in the bet over the pot
only. -/
theorem situation_tells_history (decision : Decision) (live : Option LiveAction) :
    let spot := decision.situation live
    let aggressive (past : PastAction) :=
      past.action = .bet ∨ past.action = .raise ∨ past.action = .allIn
    (∀ street, spot.playerAggression.get street = true ↔
      ∃ past ∈ decision.history,
        past.street = street ∧ past.actor = decision.player ∧ aggressive past) ∧
    (∀ street, spot.opponentAggression.get street = true ↔
      ∃ past ∈ decision.history,
        past.street = street ∧ past.actor ≠ decision.player ∧ aggressive past) ∧
    (spot.opponentDoubleBarrel = true ↔
      ∃ first ∈ decision.history, ∃ second ∈ decision.history,
        (first.actor ≠ decision.player ∧ aggressive first) ∧
        (second.actor ≠ decision.player ∧ aggressive second) ∧
        first.street.rank + 1 = second.street.rank ∧ second.street ≤ decision.street) ∧
    (∀ history, (∀ past, past ∈ history ↔ past ∈ decision.history) →
      { decision with history }.situation live = spot) ∧
    (∀ history added, history.Perm (decision.history ++ added) →
      (∀ past ∈ added, past.action = .fold ∨ past.action = .check ∨ past.action = .call) →
      { decision with history }.situation live = spot) ∧
    (∀ history added, history.Perm (decision.history ++ added) →
      (∀ past ∈ added, decision.street.rank < past.street.rank) →
      ({ decision with history }.situation live).opponentDoubleBarrel =
        spot.opponentDoubleBarrel) ∧
    ∀ other, decision.situation other =
      { spot with betToPot := (decision.situation other).betToPot } := by
  intro spot aggressive
  have hflag (who : String → Bool) (street : Street) :
      (decision.aggression who).get street = true ↔
        ∃ past ∈ decision.history,
          past.street = street ∧ who past.actor = true ∧ aggressive past := by
    simpa only [Action.isAggressive_iff] using decision.get_aggression_iff
  have hopponent (street : Street) : spot.opponentAggression.get street = true ↔
      ∃ past ∈ decision.history,
        past.street = street ∧ past.actor ≠ decision.player ∧ aggressive past := by
    have hothers := hflag (· != decision.player) street
    simp only [bne_iff_ne] at hothers
    exact hothers
  have hkept {history added : List PastAction} (hperm : history.Perm (decision.history ++ added))
      {past : PastAction} (hnew : past ∉ added) : past ∈ history ↔ past ∈ decision.history := by
    rw [hperm.mem_iff, List.mem_append, or_iff_left hnew]
  refine ⟨fun street => ?_, hopponent, ?_, fun history hsame => ?_,
    fun history added hperm hadded => ?_, fun history added hperm hadded => ?_, fun other => rfl⟩
  · have hown := hflag (· == decision.player) street
    simp only [beq_iff_eq] at hown
    exact hown
  · rw [decision.opponentDoubleBarrel_iff live]
    constructor
    · rintro ⟨earlier, later, hnext, hbegun, hearlier, hlater⟩
      obtain ⟨first, hfirst, rfl, hfirst'⟩ := (hopponent earlier).mp hearlier
      obtain ⟨second, hsecond, rfl, hsecond'⟩ := (hopponent later).mp hlater
      exact ⟨first, hfirst, second, hsecond, hfirst', hsecond', hnext, hbegun⟩
    · rintro ⟨first, hfirst, second, hsecond, hfirst', hsecond', hnext, hbegun⟩
      exact ⟨first.street, second.street, hnext, hbegun,
        (hopponent first.street).mpr ⟨first, hfirst, rfl, hfirst'⟩,
        (hopponent second.street).mpr ⟨second, hsecond, rfl, hsecond'⟩⟩
  · exact decision.situation_congr live fun past _ => hsame past
  · refine decision.situation_congr live fun past haggressive => hkept hperm fun hmem => ?_
    rcases hadded past hmem with haction | haction | haction
    all_goals
      rw [haction] at haggressive
      cases haggressive
  · refine decision.opponentDoubleBarrel_congr live fun past _ hbegun => hkept hperm fun hmem => ?_
    exact Nat.lt_irrefl _ (Nat.lt_of_lt_of_le (hadded past hmem) hbegun)

end Decision

end PokerCoach
