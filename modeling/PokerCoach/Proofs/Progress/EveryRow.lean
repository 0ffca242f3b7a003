import PokerCoach.Proofs.Progress.Lesson

/-!
# What holds of every row

Rows are created without outcomes, and one outcome at a time is recorded in one of them. So what
holds of new rows and after each outcome holds of every row that a record ever gets.
-/

namespace PokerCoach

open Std Time

namespace PlayerRecord

/-- Every row of the record is such, with the skill that it is kept for. -/
def EveryRow (record : PlayerRecord) (holds : String → SkillRow → Prop) : Prop :=
  ∀ id row, record.row? id = some row → holds id row

variable {record : PlayerRecord} {holds : String → SkillRow → Prop}

theorem everyRow_fresh (player : String) (now : Instant) : (fresh player now).EveryRow holds := by
  intro id row hrow
  simp [fresh, row?] at hrow

theorem row?_practice_of_ne {skill : Skill} {id : String} (hne : skill.id ≠ id) (outcome : Outcome)
    (marginalCredit : Float) (now : Instant) :
    (record.practice skill outcome marginalCredit now).row? id = record.row? id := by
  simp [practice, hne]

theorem row?_practice_self (skill : Skill) (outcome : Outcome) (marginalCredit : Float)
    (now : Instant) :
    (record.practice skill outcome marginalCredit now).row? skill.id =
      some ((record.rowFor skill.id now).record outcome skill.evidence marginalCredit now).1 := by
  simp [practice]

theorem EveryRow.practice (hevery : record.EveryRow holds) {skill : Skill} {outcome : Outcome}
    {marginalCredit : Float} {now : Instant}
    (hrecorded : holds skill.id
      ((record.rowFor skill.id now).record outcome skill.evidence marginalCredit now).1) :
    (record.practice skill outcome marginalCredit now).EveryRow holds := by
  intro id row hrow
  by_cases heq : skill.id = id
  · subst heq
    rw [row?_practice_self] at hrow
    cases hrow
    exact hrecorded
  · rw [row?_practice_of_ne heq] at hrow
    exact hevery id row hrow

/-! ### New rows -/

section Fresh

variable (hfresh : ∀ id level now, holds id (.fresh id level now))
include hfresh

theorem EveryRow.addRows (hevery : record.EveryRow holds) (rows : List Backfill) (now : Instant) :
    (record.addRows rows now).EveryRow holds := by
  intro id row hrow
  rw [row?_addRows, Option.or_eq_some_iff] at hrow
  rcases hrow with hold | ⟨-, hnew⟩
  · exact hevery id row hold
  · obtain ⟨added, -, rfl⟩ := Option.map_eq_some_iff.mp hnew
    exact hfresh id added.level now

theorem EveryRow.backfill (hevery : record.EveryRow holds) (curriculum : Curriculum)
    (now : Instant) : (record.backfill curriculum now).1.EveryRow holds := by
  intro id row hrow
  rw [row?_backfill] at hrow
  exact hevery.addRows hfresh _ now id row hrow

theorem EveryRow.setUp (hevery : record.EveryRow holds) (curriculum : Curriculum)
    (now : Instant) : (record.setUp curriculum now).EveryRow holds := by
  unfold PlayerRecord.setUp ensureEntryGate
  split
  · exact hevery.backfill hfresh curriculum now
  · have hentry : ((record.unlock 1 now).touch now).EveryRow holds := hevery
    exact hentry.backfill hfresh curriculum now

theorem EveryRow.advance (hevery : record.EveryRow holds) (curriculum : Curriculum)
    (skill : String) (now : Instant) : (record.advance curriculum skill now).EveryRow holds := by
  unfold PlayerRecord.advance
  split
  · exact hevery
  · next gate _ =>
      have hopened : ((record.unlock gate now).touch now).EveryRow holds := hevery
      exact hopened.backfill hfresh curriculum now

theorem everyRow_of_onboard? {curriculum : Curriculum} {player : String} {now : Instant}
    {experience : Experience} {started : PlayerRecord} {rows : List Backfill}
    (honboard : (fresh player now).onboard? curriculum experience now = some (started, rows)) :
    started.EveryRow holds := by
  have hunlocked (gates : List Gate) (record : PlayerRecord) (hevery : record.EveryRow holds) :
      (gates.foldl (fun record gate => record.unlock gate.number now) record).EveryRow holds := by
    induction gates generalizing record with
    | nil => exact hevery
    | cons gate rest ih => exact ih _ hevery
  unfold PlayerRecord.onboard? at honboard
  split at honboard
  · cases honboard
  · cases honboard
    exact (hunlocked _ _ (everyRow_fresh player now)).addRows hfresh _ now

end Fresh

end PlayerRecord

end PokerCoach
