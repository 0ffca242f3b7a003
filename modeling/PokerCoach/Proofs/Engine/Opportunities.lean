import PokerCoach.Proofs.Engine.Play
import Mathlib.Algebra.BigOperators.Group.List.Basic
import Mathlib.Algebra.GroupWithZero.Nat

/-!
# Opportunities

A record counts for each skill how often it was practiced, up to the greatest count there is. What
is counted after some decisions is what their reports have in evaluations that apply.
-/

namespace PokerCoach

open Std Time

namespace PlayerRecord

/-- What a record counts for a skill; nothing without a row. -/
def opportunities (record : PlayerRecord) (skill : String) : Nat :=
  (record.row? skill).elim 0 fun row => row.opportunities.toNat

variable (record : PlayerRecord) (curriculum : Curriculum) (now : Instant) (id : String)

theorem opportunities_le : record.opportunities id ≤ 2 ^ 32 - 1 := by
  unfold opportunities
  cases record.row? id with
  | none => exact Nat.zero_le _
  | some row => exact Nat.le_pred_of_lt row.opportunities.toNat_lt

/-- New rows start from nothing. -/
theorem opportunities_eq_of_addRows (rows : List Backfill) :
    (record.addRows rows now).opportunities id = record.opportunities id := by
  unfold opportunities
  rw [row?_addRows]
  cases record.row? id with
  | some row => rfl
  | none =>
      rw [Option.none_or]
      cases rows.find? fun row => row.skill = id <;> rfl

@[simp]
theorem opportunities_unlock (gate : UInt32) :
    (record.unlock gate now).opportunities id = record.opportunities id := rfl

@[simp]
theorem opportunities_touch : (record.touch now).opportunities id = record.opportunities id := rfl

@[simp]
theorem opportunities_backfill :
    (record.backfill curriculum now).1.opportunities id = record.opportunities id := by
  rw [opportunities, row?_backfill]
  exact record.opportunities_eq_of_addRows now id _

@[simp]
theorem opportunities_setUp :
    (record.setUp curriculum now).opportunities id = record.opportunities id := by
  rw [setUp, opportunities_backfill, ensureEntryGate]
  split <;> rfl

@[simp]
theorem opportunities_advance (skill : String) :
    (record.advance curriculum skill now).opportunities id = record.opportunities id := by
  unfold advance
  split
  · rfl
  · rw [opportunities_backfill, opportunities_touch, opportunities_unlock]

theorem opportunities_practice (skill : Skill) {outcome : Outcome}
    (happlicable : outcome.isApplicable = true) (marginalCredit : Float) :
    (record.practice skill outcome marginalCredit now).opportunities id =
      min (record.opportunities id + if skill.id = id then 1 else 0) (2 ^ 32 - 1) := by
  have hbound := record.opportunities_le id
  by_cases heq : skill.id = id
  · subst heq
    have hrow : record.opportunities skill.id =
        (record.rowFor skill.id now).opportunities.toNat := by
      unfold opportunities rowFor
      cases record.row? skill.id <;> rfl
    have hcount := SkillRow.opportunities_record (record.rowFor skill.id now) outcome skill.evidence
      marginalCredit now
    rw [if_pos happlicable] at hcount
    rw [if_pos rfl, hrow, opportunities, practice, row?_touch, row?_setRow, if_pos rfl,
      Option.elim_some, hcount, toNat_countUp]
    rfl
  · rw [if_neg heq, Nat.add_zero, Nat.min_eq_left hbound, opportunities, practice, row?_touch,
      row?_setRow, if_neg heq]
    rfl

end PlayerRecord

/-- How often a skill is practiced in a decision. -/
def DecisionReport.practiced (report : DecisionReport) (skill : String) : Nat :=
  report.evaluations.countP fun evaluation =>
    evaluation.skill == skill && evaluation.outcome.isApplicable

namespace Draft

/-- The record counts what it counted before and what the report has practiced. -/
def Counts (draft : Draft) (before : Nat) (id : String) : Prop :=
  draft.record.opportunities id = min (before + draft.report.practiced id) (2 ^ 32 - 1)

theorem practiced_note (draft : Draft) (evaluation : Evaluation) (id : String) :
    (draft.note evaluation).report.practiced id =
      draft.report.practiced id +
        if evaluation.skill = id ∧ evaluation.outcome.isApplicable then 1 else 0 := by
  simp [note, DecisionReport.practiced, List.countP_append, List.countP_singleton]

variable {course : Course} {draft : Draft} {before : Nat} {id : String}

theorem Counts.practice (hcounts : draft.Counts before id) {evaluation : Evaluation}
    (happlicable : evaluation.outcome.isApplicable = true) {skill : Skill}
    (hskill : evaluation.skill = skill.id) (marginalCredit : Float) (now : Instant) :
    ((draft.note evaluation).practice skill evaluation.outcome marginalCredit now).Counts before
      id := by
  have hpracticed := draft.practiced_note evaluation id
  have hrecord := draft.record.opportunities_practice now id skill happlicable marginalCredit
  simp only [hskill, happlicable, and_true] at hpracticed
  unfold Counts at hcounts
  calc (draft.record.practice skill evaluation.outcome marginalCredit now).opportunities id
      = min (draft.record.opportunities id + if skill.id = id then 1 else 0) (2 ^ 32 - 1) := hrecord
    _ = min (before + (draft.note evaluation).report.practiced id) (2 ^ 32 - 1) := by
        rw [hpracticed, hcounts]
        omega

theorem Counts.advance (hcounts : draft.Counts before id) (curriculum : Curriculum) (skill : String)
    (now : Instant) : (draft.advance curriculum skill now).Counts before id := by
  rw [Counts, DecisionReport.practiced, evaluations_advance, record_advance,
    PlayerRecord.opportunities_advance]
  exact hcounts

theorem Counts.judge (hcounts : draft.Counts before id) (live : LiveAction) (spot : Situation)
    (now : Instant) {skill : String} (htaught : (course.curriculum.skill? skill).isSome) :
    (draft.judge course live spot now skill).Counts before id := by
  rcases draft.judge_cases course live spot now skill with
    ⟨hskip, hjudge⟩ | ⟨definition, rfl, -, happlicable, hjudge⟩
  · rw [hjudge, Counts, practiced_note, if_neg fun happlied => ?_]
    · exact hcounts
    · rw [hskip happlied.2] at htaught
      cases htaught
  · rw [hjudge]
    exact (hcounts.practice happlicable (course.rules.skill_evaluate _ live spot) _ now).advance
      course.curriculum definition.id now

theorem Counts.foldl_judge (hcounts : draft.Counts before id) (live : LiveAction) (spot : Situation)
    (now : Instant) {skills : List String}
    (htaught : ∀ skill ∈ skills, (course.curriculum.skill? skill).isSome) :
    (skills.foldl (Draft.judge course live spot now) draft).Counts before id := by
  induction skills generalizing draft with
  | nil => exact hcounts
  | cons skill rest ih =>
      exact ih (hcounts.judge live spot now (htaught skill List.mem_cons_self))
        fun other hmem => htaught other (List.mem_cons_of_mem skill hmem)

end Draft

namespace Course

variable (course : Course)

theorem counts_play (current : Option PlayerRecord) (decision : Decision) (live : LiveAction)
    (now : Instant) (id : String) :
    (course.play current decision live now).Counts
      (current.elim 0 fun record => record.opportunities id) id := by
  have hbase : (current.getD (.fresh decision.player now)).opportunities id =
      current.elim 0 fun record => record.opportunities id := by
    cases current with
    | none => simp [PlayerRecord.opportunities, PlayerRecord.fresh, PlayerRecord.row?]
    | some record => rfl
  refine Draft.Counts.foldl_judge ?_ live _ now fun skill hmem =>
    Draft.isSome_skill?_of_mem_triggered hmem
  have hbound := (current.getD (.fresh decision.player now)).opportunities_le id
  rw [← hbase]
  exact (PlayerRecord.opportunities_setUp _ _ now id).trans (Nat.min_eq_left hbound).symm

theorem opportunities_playAll (current : Option PlayerRecord)
    (moves : List (Decision × LiveAction × Instant)) (id : String) :
    (course.playAll current moves).2.elim 0 (fun record => record.opportunities id) =
      min ((current.elim 0 fun record => record.opportunities id) +
        ((course.playAll current moves).1.map fun report => report.practiced id).sum)
        (2 ^ 32 - 1) := by
  induction moves generalizing current with
  | nil =>
      cases current with
      | none => rfl
      | some record => exact (Nat.min_eq_left (record.opportunities_le id)).symm
  | cons move rest ih =>
      obtain ⟨decision, live, now⟩ := move
      have hfirst := course.counts_play current decision live now id
      unfold Draft.Counts at hfirst
      have hrest := ih (some (course.play current decision live now).record)
      rw [Option.elim_some, hfirst] at hrest
      simp only [playAll, List.map_cons, List.sum_cons]
      rw [hrest]
      omega

end Course

end PokerCoach
