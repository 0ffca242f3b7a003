import PokerCoach.Proofs.Progress.EveryRow
import PokerCoach.Proofs.Progress.Migration
import PokerCoach.Proofs.Progress.Sound

/-!
# Where rows come from

A row is created when a curriculum teaches its skill at an open gate, and gates stay open. So under
any number of curricula, taught one after the other, every row still has its reason.
-/

namespace PokerCoach

open Std Time

namespace PlayerRecord

/-- Gates are open from the first one on without a gap, and each row is of a skill that one of the
curricula teaches at an open gate. -/
structure Grounded (record : PlayerRecord) (curricula : List Curriculum) : Prop where
  below : ∀ gate other : UInt32, record.isUnlocked gate = true → 1 ≤ other → other ≤ gate →
    record.isUnlocked other = true
  taught : ∀ id row, record.row? id = some row →
    ∃ curriculum ∈ curricula, record.ComesUp curriculum id

variable {record : PlayerRecord} {curriculum : Curriculum} {curricula : List Curriculum}

namespace Grounded

variable (hgrounded : record.Grounded curricula)
include hgrounded

/-- The reason for a row is one in every record that extends this one. -/
theorem taught_of_extends {newer : PlayerRecord} (hext : newer.Extends record) {id : String}
    {row : SkillRow} (hrow : record.row? id = some row) :
    ∃ curriculum ∈ curricula, newer.ComesUp curriculum id := by
  obtain ⟨other, hother, hcomes⟩ := hgrounded.taught id row hrow
  exact ⟨other, hother, hext.comesUp hcomes⟩

theorem touch (now : Instant) : (record.touch now).Grounded curricula :=
  ⟨hgrounded.below, hgrounded.taught⟩

theorem unlock {gate : UInt32}
    (hbelow : ∀ other, 1 ≤ other → other < gate → record.isUnlocked other = true)
    (now : Instant) : (record.unlock gate now).Grounded curricula where
  below last other hopen hone hle := by
    rw [isUnlocked_unlock, Bool.or_eq_true, decide_eq_true_iff] at hopen ⊢
    rcases hopen with rfl | hopen
    · by_cases heq : gate = other
      · exact .inl heq
      · exact .inr (hbelow other hone (UInt32.lt_of_le_of_ne hle (Ne.symm heq)))
    · exact .inr (hgrounded.below last other hopen hone hle)
  taught _ _ hrow := hgrounded.taught_of_extends (unlock_extends record now gate) hrow

theorem practice {skill : Skill} (hmem : curriculum ∈ curricula)
    (hcomes : record.ComesUp curriculum skill.id) (outcome : Outcome) (marginalCredit : Float)
    (now : Instant) :
    (record.practice skill outcome marginalCredit now).Grounded curricula where
  below := hgrounded.below
  taught id row hrow := by
    have hext := practice_extends record now skill outcome marginalCredit
    by_cases heq : skill.id = id
    · exact ⟨curriculum, hmem, heq ▸ hext.comesUp hcomes⟩
    · rw [row?_practice_of_ne heq] at hrow
      exact hgrounded.taught_of_extends hext hrow

section WellFormed

variable (hwell : curriculum.WellFormed) (hmem : curriculum ∈ curricula)
include hwell hmem

theorem backfill (now : Instant) : (record.backfill curriculum now).1.Grounded curricula where
  below gate other hopen hone hle := by
    rw [isUnlocked_backfill] at hopen ⊢
    exact hgrounded.below gate other hopen hone hle
  taught id row hrow := by
    have hext := backfill_extends record curriculum now
    cases hold : record.row? id with
    | some old => exact hgrounded.taught_of_extends hext hold
    | none =>
        obtain ⟨added, hadded, rfl, -⟩ := record.exists_missing_of_row?_backfill now hold hrow
        obtain ⟨gate, hgate, hopen, -, hid, -⟩ := (record.mem_missing_iff curriculum).mp hadded
        obtain ⟨skill, hskill, hname⟩ := List.mem_map.mp hid
        refine ⟨curriculum, hmem, hext.comesUp ⟨skill, ?_, hname, ?_⟩⟩
        · exact List.mem_flatMap.mpr ⟨gate, hgate, hskill⟩
        · rwa [hwell.owner gate hgate skill hskill]

theorem setUp (now : Instant) : (record.setUp curriculum now).Grounded curricula := by
  unfold PlayerRecord.setUp ensureEntryGate
  split
  · exact hgrounded.backfill hwell hmem now
  · have hnone : ∀ other : UInt32, 1 ≤ other → other < 1 → record.isUnlocked other = true :=
      fun other hone hlt => absurd (UInt32.lt_of_lt_of_le hlt hone) (UInt32.lt_irrefl other)
    exact ((hgrounded.unlock hnone now).touch now).backfill hwell hmem now

/-- Only the gate after an open one is earned, so that no gap opens. -/
theorem advance {skill : Skill} (hskill : curriculum.skill? skill.id = some skill)
    (hcomes : record.ComesUp curriculum skill.id) (now : Instant) :
    (record.advance curriculum skill.id now).Grounded curricula := by
  unfold PlayerRecord.advance
  cases hearned : record.earnedGate? curriculum skill.id with
  | none => exact hgrounded
  | some number =>
      obtain ⟨gate, next, hgate, hnext, rfl, -, -⟩ := earnedGate?_eq_some hearned
      have hopen : record.isUnlocked gate.number = true := by
        rw [(Curriculum.gateOf?_eq_some hgate hskill).2]
        exact hcomes.isUnlocked hwell hskill
      have hafter := (hwell.nextGate?_eq_some hnext).2
      have hbelow : ∀ other, 1 ≤ other → other < next.number → record.isUnlocked other = true := by
        intro other hone hlt
        rw [UInt32.lt_iff_toNat_lt] at hlt
        have hle : other ≤ gate.number := UInt32.le_iff_toNat_le.mpr (by omega)
        exact hgrounded.below gate.number other hopen hone hle
      exact ((hgrounded.unlock hbelow now).touch now).backfill hwell hmem now

theorem learn {skill : Skill} (hskill : curriculum.skill? skill.id = some skill)
    (hcomes : record.ComesUp curriculum skill.id) (outcome : Outcome) (marginalCredit : Float)
    (now : Instant) :
    (record.learn curriculum skill outcome marginalCredit now).Grounded curricula := by
  have hext := practice_extends record now skill outcome marginalCredit
  have hpracticed := hgrounded.practice hmem hcomes outcome marginalCredit now
  exact hpracticed.advance hwell hmem hskill (hext.comesUp hcomes) now

end WellFormed

end Grounded

/-! ### New records -/

/-- Records of a single curriculum are grounded in it. -/
theorem Opened.grounded {frontier : Nat} (hopened : record.Opened curriculum frontier)
    (hwell : curriculum.WellFormed) (hmem : curriculum ∈ curricula) :
    record.Grounded curricula where
  below gate other hopen hone hle := by
    have hfrontier := (hopened.isUnlocked_iff.mp hopen).2
    rw [UInt32.le_iff_toNat_le] at hone hle
    exact hopened.isUnlocked_iff.mpr ⟨hone, Nat.le_trans hle hfrontier⟩
  taught id row hrow := by
    obtain ⟨skill, hskill, hid, hgate, -⟩ := hopened.rows id row hrow
    obtain ⟨gate, hmemGate, -, hnumber⟩ := hwell.exists_gate_of_skill hskill
    have hpos := (hwell.number_le hmemGate).1
    rw [← hnumber] at hpos
    exact ⟨curriculum, hmem, skill, hskill, hid, hopened.isUnlocked_iff.mpr ⟨hpos, hgate⟩⟩

theorem grounded_of_onboard? (hwell : curriculum.WellFormed) (hmem : curriculum ∈ curricula)
    {player : String} {now : Instant} {experience : Experience} {started : PlayerRecord}
    {rows : List Backfill}
    (honboard : (fresh player now).onboard? curriculum experience now = some (started, rows)) :
    started.Grounded curricula := by
  by_cases hgates : curriculum.gates = []
  · have hopens : curriculum.gates.takeWhile
        (fun gate => decide (gate.number ≤ startGate curriculum experience)) =
          curriculum.gates.take 0 := by
      rw [hgates]
      rfl
    exact (opened_of_onboard? hwell (Nat.zero_le _) hopens honboard).grounded hwell hmem
  · obtain ⟨frontier, hsound⟩ := sound_of_onboard? hwell hgates honboard
    exact hsound.toOpened.grounded hwell hmem

end PlayerRecord

end PokerCoach
