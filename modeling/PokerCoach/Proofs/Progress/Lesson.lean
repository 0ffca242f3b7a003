import PokerCoach.Progress.Gate
import Mathlib.Tactic.Common

/-!
# What a lesson does to a record

The changes of a record, apart from the engine that makes them: it is set up when it is loaded, and
an outcome goes into the row of its skill and may open the next gate. Every row is found again
afterwards through one equation for each change.
-/

namespace PokerCoach

open Std Time

namespace PlayerRecord

/-- Opens the first gate and creates the missing rows. -/
def setUp (record : PlayerRecord) (curriculum : Curriculum) (now : Instant) : PlayerRecord :=
  ((record.ensureEntryGate now).1.backfill curriculum now).1

def rowFor (record : PlayerRecord) (skill : String) (now : Instant) : SkillRow :=
  (record.row? skill).getD (.fresh skill .introduced now)

def practice (record : PlayerRecord) (skill : Skill) (outcome : Outcome) (marginalCredit : Float)
    (now : Instant) : PlayerRecord :=
  let (row, _) := (record.rowFor skill.id now).record outcome skill.evidence marginalCredit now
  (record.setRow skill.id row).touch now

/-- Opens the gate after that of a skill if it is earned, with the rows of its skills. -/
def advance (record : PlayerRecord) (curriculum : Curriculum) (skill : String) (now : Instant) :
    PlayerRecord :=
  match record.earnedGate? curriculum skill with
  | none => record
  | some gate => (((record.unlock gate now).touch now).backfill curriculum now).1

def learn (record : PlayerRecord) (curriculum : Curriculum) (skill : Skill) (outcome : Outcome)
    (marginalCredit : Float) (now : Instant) : PlayerRecord :=
  (record.practice skill outcome marginalCredit now).advance curriculum skill.id now

/-- Whether a skill is taught at an open gate. -/
def ComesUp (record : PlayerRecord) (curriculum : Curriculum) (skill : String) : Prop :=
  ∃ candidate ∈ curriculum.skills, candidate.id = skill ∧ record.isUnlocked candidate.gate

variable (record : PlayerRecord) (curriculum : Curriculum) (now : Instant)

@[simp]
theorem isUnlocked_fresh (player : String) (gate : UInt32) :
    (fresh player now).isUnlocked gate = false := by
  simp [isUnlocked, fresh]

/-! ### Missing rows -/

theorem row?_addRow (skill id : String) (level : Mastery) :
    (record.addRow skill level now).row? id =
      (record.row? id).or (if skill = id then some (.fresh skill level now) else none) := by
  unfold addRow
  by_cases heq : skill = id
  · subst heq
    cases hrow : record.row? skill <;> simp [hrow]
  · split <;> simp [heq]

theorem row?_addRows (rows : List Backfill) (id : String) :
    (record.addRows rows now).row? id =
      (record.row? id).or
        ((rows.find? (·.skill = id)).map fun row => .fresh id row.level now) := by
  induction rows generalizing record with
  | nil => simp [addRows]
  | cons first rest ih =>
      have hstep : record.addRows (first :: rest) now =
          (record.addRow first.skill first.level now).addRows rest now := rfl
      rw [hstep, ih, row?_addRow, Option.or_assoc]
      by_cases heq : first.skill = id
      · simp [heq]
      · simp [heq]

theorem addRow_eq (skill : String) (level : Mastery) :
    record.addRow skill level now =
      { record with skills := (record.addRow skill level now).skills } := by
  unfold addRow
  split <;> rfl

theorem addRows_eq (rows : List Backfill) :
    record.addRows rows now = { record with skills := (record.addRows rows now).skills } := by
  induction rows generalizing record with
  | nil => rfl
  | cons first rest ih =>
      have hstep : record.addRows (first :: rest) now =
          (record.addRow first.skill first.level now).addRows rest now := rfl
      rw [hstep, ih, addRow_eq]

theorem backfill_eq_of_missing (hmissing : record.missing curriculum = []) :
    record.backfill curriculum now = (record, []) := by
  simp [backfill, hmissing]

theorem snd_backfill : (record.backfill curriculum now).2 = record.missing curriculum := by
  unfold backfill
  split <;> simp_all

theorem row?_backfill (id : String) :
    (record.backfill curriculum now).1.row? id =
      (record.addRows (record.missing curriculum) now).row? id := by
  unfold backfill
  split
  · rename_i hmissing
    rw [hmissing]
    rfl
  · rfl

@[simp]
theorem gates_backfill : (record.backfill curriculum now).1.gates = record.gates := by
  unfold backfill
  split
  · rfl
  · rw [addRows_eq]
    rfl

@[simp]
theorem isUnlocked_backfill (gate : UInt32) :
    (record.backfill curriculum now).1.isUnlocked gate = record.isUnlocked gate := by
  simp [isUnlocked]

/-- A skill has a row already or is missing, and gets the row of its level. -/
theorem exists_row_of_mem_missing {row : Backfill} (hmem : row ∈ record.missing curriculum) :
    ((record.backfill curriculum now).1.row? row.skill).isSome := by
  rw [row?_backfill, row?_addRows]
  have hfound : ((record.missing curriculum).find? (·.skill = row.skill)).isSome :=
    List.find?_isSome.mpr ⟨row, hmem, by simp⟩
  cases record.row? row.skill <;> simp [hfound]

theorem mem_missing_iff {row : Backfill} :
    row ∈ record.missing curriculum ↔
      ∃ gate ∈ curriculum.gates, record.isUnlocked gate.number ∧ row.gate = gate.number ∧
        row.skill ∈ gate.skillIds ∧ record.row? row.skill = none ∧
        row.level = if record.isUnlocked (gate.number + 1) then .practicing else .introduced := by
  simp only [missing, List.mem_flatMap, missingIn]
  refine exists_congr fun gate => and_congr_right fun _ => ?_
  by_cases hopen : record.isUnlocked gate.number = true
  · simp only [hopen, if_true, List.mem_map, List.mem_filter, Option.isNone_iff_eq_none, true_and]
    constructor
    · rintro ⟨skill, ⟨hskill, hrow⟩, rfl⟩
      exact ⟨rfl, hskill, hrow, rfl⟩
    · rintro ⟨hgate, hskill, hrow, hlevel⟩
      exact ⟨row.skill, ⟨hskill, hrow⟩, by rw [← hlevel, ← hgate]⟩
  · simp [hopen]

theorem exists_missing {gate : Gate} {skill : String} (hgate : gate ∈ curriculum.gates)
    (hopen : record.isUnlocked gate.number) (hskill : skill ∈ gate.skillIds)
    (hrow : record.row? skill = none) : ∃ row ∈ record.missing curriculum, row.skill = skill :=
  ⟨⟨skill, gate.number, _⟩, (record.mem_missing_iff curriculum).mpr
    ⟨gate, hgate, hopen, rfl, hskill, hrow, rfl⟩, rfl⟩

theorem missing_eq_nil_iff :
    record.missing curriculum = [] ↔
      ∀ gate ∈ curriculum.gates, record.isUnlocked gate.number →
        ∀ skill ∈ gate.skillIds, (record.row? skill).isSome := by
  constructor
  · intro hmissing gate hgate hopen skill hskill
    by_contra hrow
    obtain ⟨row, hmem, -⟩ :=
      record.exists_missing curriculum hgate hopen hskill (by simpa using hrow)
    rw [hmissing] at hmem
    exact List.not_mem_nil hmem
  · intro hrows
    refine List.eq_nil_iff_forall_not_mem.mpr fun row hmem => ?_
    obtain ⟨gate, hgate, hopen, -, hskill, hrow, -⟩ := (record.mem_missing_iff curriculum).mp hmem
    simpa [hrow] using hrows gate hgate hopen row.skill hskill

theorem missing_backfill : (record.backfill curriculum now).1.missing curriculum = [] := by
  rw [missing_eq_nil_iff]
  intro gate hgate hopen skill hskill
  rw [isUnlocked_backfill] at hopen
  cases hrow : record.row? skill with
  | some row => simp [row?_backfill, row?_addRows, hrow]
  | none =>
      obtain ⟨row, hmem, rfl⟩ := record.exists_missing curriculum hgate hopen hskill hrow
      exact record.exists_row_of_mem_missing curriculum now hmem

/-! ### Records that are set up -/

/-- Loading has nothing to do for such a record. -/
def IsSetUp : Prop :=
  record.isUnlocked 1 ∧ record.missing curriculum = []

theorem isUnlocked_unlock (gate other : UInt32) :
    (record.unlock gate now).isUnlocked other =
      (decide (gate = other) || record.isUnlocked other) := by
  simp only [unlock, isUnlocked_setGate, GateEntry.unlock]
  by_cases heq : gate = other
  · subst heq
    simp only [if_true, decide_true, Bool.true_or]
    split
    · assumption
    · rfl
  · simp [heq]

theorem isSetUp_setUp : (record.setUp curriculum now).IsSetUp curriculum := by
  refine ⟨?_, missing_backfill _ curriculum now⟩
  simp only [setUp, isUnlocked_backfill, ensureEntryGate]
  split
  · assumption
  · simp [isUnlocked_unlock]

variable {record curriculum} in
theorem IsSetUp.ensureEntryGate_eq (hset : record.IsSetUp curriculum) :
    record.ensureEntryGate now = (record, false) := by
  simp [ensureEntryGate, hset.1]

variable {record curriculum} in
theorem IsSetUp.setUp_eq (hset : record.IsSetUp curriculum) :
    record.setUp curriculum now = record := by
  simp [setUp, hset.ensureEntryGate_eq, backfill_eq_of_missing _ _ _ hset.2]

end PlayerRecord

end PokerCoach
