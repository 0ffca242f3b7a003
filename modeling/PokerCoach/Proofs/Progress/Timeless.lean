import PokerCoach.Proofs.Progress.Lesson

/-!
# Records without their times

The times in a record are only told: no change of a record looks at them. A change of the record
without its times, made at any time, is the change of the record, and what it reports is the same.
-/

namespace PokerCoach

open Std Time

def GateEntry.timeless (entry : GateEntry) : GateEntry :=
  { entry with unlockedAt := entry.unlockedAt.map fun _ => .epoch }

/-- The row with every time set to the epoch; whether there was a move is kept. -/
def SkillRow.timeless (row : SkillRow) : SkillRow :=
  { row with
    createdAt := .epoch
    updatedAt := .epoch
    lastTransitionAt := row.lastTransitionAt.map fun _ => .epoch }

def PlayerRecord.timeless (record : PlayerRecord) : PlayerRecord :=
  { record with
    skills := record.skills.map fun _ row => row.timeless
    gates := record.gates.map fun _ entry => entry.timeless
    createdAt := .epoch
    updatedAt := .epoch }

theorem GateEntry.timeless_unlock (entry : GateEntry) (now : Instant) :
    (entry.unlock now).timeless = entry.timeless.unlock .epoch := by
  unfold unlock
  cases hopen : entry.unlocked <;> simp [timeless, hopen]

namespace SkillRow

variable {α : Type} [Share α] (row : SkillRow) (rule : EvidenceRule α) (marginalCredit : α)
  (now : Instant)

theorem timeless_settle :
    (row.timeless.settle rule marginalCredit .epoch).1 =
        (row.settle rule marginalCredit now).1.timeless ∧
      (row.timeless.settle rule marginalCredit .epoch).2 =
        (row.settle rule marginalCredit now).2 := by
  have hverdict : row.timeless.verdict rule marginalCredit = row.verdict rule marginalCredit := rfl
  have hlevel : row.timeless.level = row.level := rfl
  unfold settle
  rw [hverdict, hlevel]
  dsimp only
  split <;> exact ⟨rfl, rfl⟩

theorem timeless_record (outcome : Outcome) :
    (row.timeless.record outcome rule marginalCredit .epoch).1 =
        (row.record outcome rule marginalCredit now).1.timeless ∧
      (row.timeless.record outcome rule marginalCredit .epoch).2 =
        (row.record outcome rule marginalCredit now).2 := by
  unfold record
  split
  · exact timeless_settle (row.push outcome rule.windowSize now) rule marginalCredit now
  · exact ⟨rfl, rfl⟩

end SkillRow

namespace PlayerRecord

variable (record : PlayerRecord) (curriculum : Curriculum) (now : Instant)

theorem timeless_fresh (player : String) :
    (fresh player now).timeless = fresh player .epoch := by
  rfl

/-! ### What is read of a record -/

@[simp]
theorem row?_timeless (id : String) :
    record.timeless.row? id = (record.row? id).map SkillRow.timeless :=
  ExtTreeMap.getElem?_map

@[simp]
theorem isUnlocked_timeless (gate : UInt32) :
    record.timeless.isUnlocked gate = record.isUnlocked gate := by
  simp only [isUnlocked, timeless, ExtTreeMap.getElem?_map, Option.any_map]
  rfl

@[simp]
theorem missing_timeless : record.timeless.missing curriculum = record.missing curriculum := by
  have hgates : record.timeless.missingIn = record.missingIn := by
    funext gate
    simp [missingIn]
  simp only [missing, hgates]

@[simp]
theorem graduated_timeless (gate : Gate) :
    record.timeless.graduated gate = record.graduated gate := by
  have hrows : record.timeless.row? = fun id => (record.row? id).map SkillRow.timeless :=
    funext record.row?_timeless
  unfold graduated
  rw [hrows, ← List.map_filterMap, List.countP_map]
  rfl

@[simp]
theorem earnedGate?_timeless (skill : String) :
    record.timeless.earnedGate? curriculum skill = record.earnedGate? curriculum skill := by
  simp [earnedGate?]

/-! ### What is changed in a record -/

theorem timeless_setRow (skill : String) (row : SkillRow) :
    (record.setRow skill row).timeless = record.timeless.setRow skill row.timeless := by
  unfold timeless setRow
  congr 1
  refine ExtTreeMap.ext_getElem? fun id => ?_
  simp only [ExtTreeMap.getElem?_map, ExtTreeMap.getElem?_insert]
  split <;> rfl

theorem timeless_unlock (gate : UInt32) :
    (record.unlock gate now).timeless = record.timeless.unlock gate .epoch := by
  unfold unlock timeless setGate
  congr 1
  refine ExtTreeMap.ext_getElem? fun other => ?_
  simp only [ExtTreeMap.getElem?_map, ExtTreeMap.getElem?_insert]
  split
  · rw [Option.map_some, GateEntry.timeless_unlock]
    cases record.gates[gate]? <;> rfl
  · rfl

theorem timeless_touch : (record.touch now).timeless = record.timeless.touch .epoch := rfl

theorem timeless_addRow (skill : String) (level : Mastery) :
    (record.addRow skill level now).timeless = record.timeless.addRow skill level .epoch := by
  unfold addRow
  rw [row?_timeless, Option.isSome_map]
  split
  · rfl
  · exact timeless_setRow record skill _

theorem timeless_addRows (rows : List Backfill) :
    (record.addRows rows now).timeless = record.timeless.addRows rows .epoch := by
  induction rows generalizing record with
  | nil => rfl
  | cons row rest ih =>
      have hstep : (record.addRows (row :: rest) now).timeless =
          (record.addRow row.skill row.level now).timeless.addRows rest .epoch := ih _
      rw [hstep, timeless_addRow]
      rfl

theorem timeless_backfill :
    (record.timeless.backfill curriculum .epoch).1 =
      (record.backfill curriculum now).1.timeless := by
  unfold backfill
  rw [missing_timeless]
  split
  · rfl
  · rw [timeless_touch, timeless_addRows]

theorem timeless_ensureEntryGate :
    (record.timeless.ensureEntryGate .epoch).1 = (record.ensureEntryGate now).1.timeless ∧
      (record.timeless.ensureEntryGate .epoch).2 = (record.ensureEntryGate now).2 := by
  unfold ensureEntryGate
  rw [isUnlocked_timeless]
  split
  · exact ⟨rfl, rfl⟩
  · rw [timeless_touch, timeless_unlock]
    exact ⟨rfl, rfl⟩

theorem timeless_setUp :
    record.timeless.setUp curriculum .epoch = (record.setUp curriculum now).timeless := by
  unfold setUp
  rw [(record.timeless_ensureEntryGate now).1, timeless_backfill]

theorem timeless_rowFor (skill : String) :
    record.timeless.rowFor skill .epoch = (record.rowFor skill now).timeless := by
  unfold rowFor
  rw [row?_timeless]
  cases record.row? skill <;> rfl

theorem timeless_practice (skill : Skill) (outcome : Outcome) (marginalCredit : Float) :
    record.timeless.practice skill outcome marginalCredit .epoch =
      (record.practice skill outcome marginalCredit now).timeless := by
  have hrow :=
    (record.rowFor skill.id now).timeless_record skill.evidence marginalCredit now outcome
  unfold practice
  dsimp only
  rw [timeless_touch, timeless_setRow, timeless_rowFor, hrow.1]

theorem timeless_advance (skill : String) :
    record.timeless.advance curriculum skill .epoch =
      (record.advance curriculum skill now).timeless := by
  unfold advance
  rw [earnedGate?_timeless]
  split
  · rfl
  · rw [← timeless_backfill, timeless_touch, timeless_unlock]

end PlayerRecord

end PokerCoach
