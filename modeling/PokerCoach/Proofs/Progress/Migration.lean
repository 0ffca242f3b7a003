import PokerCoach.Proofs.Curriculum.WellFormed
import PokerCoach.Proofs.Progress.Extension

/-!
# Records under a new curriculum

A record that is loaded may have been written under another curriculum, with gates that are gone,
locked or open with gaps between them. Setting it up opens the first gate and adds the rows that the
curriculum asks for; nothing else of the record changes, and a second time there is nothing to do.
-/

namespace PokerCoach

open Std Time

namespace PlayerRecord

variable (record : PlayerRecord) {curriculum : Curriculum} (now : Instant)

/-! ### The first gate -/

theorem isUnlocked_ensureEntryGate (gate : UInt32) :
    (record.ensureEntryGate now).1.isUnlocked gate = true ↔
      gate = 1 ∨ record.isUnlocked gate = true := by
  unfold ensureEntryGate
  by_cases hentry : record.isUnlocked 1 = true
  · rw [if_pos hentry]
    exact (or_iff_right_of_imp fun heq => heq ▸ hentry).symm
  · rw [if_neg hentry, isUnlocked_touch, isUnlocked_unlock, Bool.or_eq_true, decide_eq_true_iff,
      eq_comm]

/-- The entries of all gates but a locked first one stay as they are. -/
theorem gates_ensureEntryGate {gate : UInt32} {entry : GateEntry}
    (hentry : record.gates[gate]? = some entry) (hkept : gate ≠ 1 ∨ entry.unlocked = true) :
    (record.ensureEntryGate now).1.gates[gate]? = some entry := by
  unfold ensureEntryGate
  by_cases hopen : record.isUnlocked 1 = true
  · rwa [if_pos hopen]
  · rw [if_neg hopen]
    have hne : gate ≠ 1 := by
      intro heq
      subst heq
      have hlocked : entry.unlocked ≠ true := by simpa [isUnlocked, hentry] using hopen
      exact hkept.elim (· rfl) hlocked
    simpa [touch, unlock, setGate, ExtTreeMap.getElem?_insert, hne.symm] using hentry

theorem row?_ensureEntryGate (id : String) :
    (record.ensureEntryGate now).1.row? id = record.row? id := by
  unfold ensureEntryGate
  split <;> rfl

/-! ### The missing rows -/

section WellFormed

variable (hwell : curriculum.WellFormed)
include hwell

theorem missingIn_eq_map_filter {gate : Gate} (hgate : gate ∈ curriculum.gates) :
    record.missingIn gate =
      (gate.skills.filter fun skill =>
        record.isUnlocked skill.gate && (record.row? skill.id).isNone).map fun skill =>
          { skill := skill.id
            gate := skill.gate
            level := if record.isUnlocked (skill.gate + 1) then .practicing else .introduced } := by
  have howner := hwell.owner gate hgate
  unfold missingIn Gate.skillIds
  by_cases hopen : record.isUnlocked gate.number = true
  · have hfilter : (gate.skills.filter fun skill =>
        record.isUnlocked skill.gate && (record.row? skill.id).isNone) =
        gate.skills.filter fun skill => (record.row? skill.id).isNone := by
      apply List.filter_congr
      intro skill hmem
      rw [howner skill hmem, hopen, Bool.true_and]
    rw [if_pos hopen, List.filter_map, List.map_map, hfilter]
    apply List.map_congr_left
    intro skill hmem
    simp only [Function.comp_apply, howner skill (List.mem_filter.mp hmem).1]
  · have hnone : (gate.skills.filter fun skill =>
        record.isUnlocked skill.gate && (record.row? skill.id).isNone) = [] := by
      apply List.filter_eq_nil_iff.mpr
      intro skill hmem
      simp [howner skill hmem, hopen]
    rw [if_neg hopen, hnone, List.map_nil]

/-- The missing rows in the order in which the curriculum teaches the skills. -/
theorem missing_eq_map_filter :
    record.missing curriculum =
      (curriculum.skills.filter fun skill =>
        record.isUnlocked skill.gate && (record.row? skill.id).isNone).map fun skill =>
          { skill := skill.id
            gate := skill.gate
            level := if record.isUnlocked (skill.gate + 1) then .practicing else .introduced } := by
  unfold missing Curriculum.skills
  rw [List.filter_flatMap, List.map_flatMap]
  apply List.flatMap_congr
  intro gate hgate
  exact record.missingIn_eq_map_filter hwell hgate

theorem nodup_missing : ((record.missing curriculum).map Backfill.skill).Nodup := by
  rw [record.missing_eq_map_filter hwell, List.map_map]
  exact hwell.nodup.sublist (List.filter_sublist.map Skill.id)

/-- A missing row is there afterwards, as a new one. -/
theorem row?_backfill_of_mem_missing {added : Backfill}
    (hmem : added ∈ record.missing curriculum) :
    (record.backfill curriculum now).1.row? added.skill =
      some (.fresh added.skill added.level now) := by
  obtain ⟨gate, -, -, -, -, hnew, -⟩ := (record.mem_missing_iff curriculum).mp hmem
  have hfound : (record.missing curriculum).find? (·.skill = added.skill) = some added :=
    Curriculum.find?_key_eq Backfill.skill (record.nodup_missing hwell) hmem
  rw [row?_backfill, row?_addRows, hnew, Option.none_or, hfound, Option.map_some]

end WellFormed

/-- A row that was not there before is one of the missing rows. -/
theorem exists_missing_of_row?_backfill {id : String} {row : SkillRow}
    (hnew : record.row? id = none)
    (hrow : (record.backfill curriculum now).1.row? id = some row) :
    ∃ added ∈ record.missing curriculum, added.skill = id ∧ row = .fresh id added.level now := by
  rw [row?_backfill, row?_addRows, hnew, Option.none_or] at hrow
  obtain ⟨added, hfound, hfresh⟩ := Option.map_eq_some_iff.mp hrow
  exact ⟨added, List.mem_of_find?_eq_some hfound, by simpa using List.find?_some hfound,
    hfresh.symm⟩

/-- Any record, set up for any curriculum: rows, open gates and the entries of all gates but the
first stay as they are, and no gate but the first is opened. Afterwards every skill of an open gate
has a row. The rows that are new are told, each once and in teaching order; they are empty, and at
the level of one who has passed the gate exactly if the next gate is open. A second time nothing is
done at all. -/
theorem setting_up_only_adds (record : PlayerRecord) (curriculum : Curriculum)
    (haccepted : curriculum.Accepted) (now later : Instant) :
    let entered := (record.ensureEntryGate now).1
    let migrated := (entered.backfill curriculum now).1
    let told := (entered.backfill curriculum now).2
    (∀ (id : String) (row : SkillRow), record.skills[id]? = some row →
      migrated.skills[id]? = some row) ∧
    (∀ (gate : UInt32) (entry : GateEntry), record.gates[gate]? = some entry →
      gate ≠ 1 ∨ entry.unlocked = true → migrated.gates[gate]? = some entry) ∧
    (∀ gate, migrated.isUnlocked gate = true ↔ gate = 1 ∨ record.isUnlocked gate = true) ∧
    (∀ gate ∈ curriculum.gates, migrated.isUnlocked gate.number = true →
      ∀ id ∈ gate.skillIds, id ∈ migrated.skills) ∧
    (∀ (id : String) (row : SkillRow), record.skills[id]? = none → migrated.skills[id]? = some row →
      ∃ added ∈ told, added.skill = id) ∧
    (∀ added ∈ told, record.skills[added.skill]? = none ∧
      migrated.skills[added.skill]? =
        some
          { skill := added.skill
            level := added.level
            window := []
            opportunities := 0
            createdAt := now
            updatedAt := now
            lastTransitionAt := none }) ∧
    (told =
      (curriculum.skills.filter fun skill =>
        migrated.isUnlocked skill.gate && !record.skills.contains skill.id).map fun skill =>
          { skill := skill.id
            gate := skill.gate
            level := if migrated.isUnlocked (skill.gate + 1) then .practicing else .introduced }) ∧
    (told.map Backfill.skill).Nodup ∧
    migrated.ensureEntryGate later = (migrated, false) ∧
    migrated.backfill curriculum later = (migrated, []) := by
  intro entered migrated told
  have hwell := haccepted.wellFormed
  have hset : migrated.IsSetUp curriculum := record.isSetUp_setUp curriculum now
  have htold : told = entered.missing curriculum := entered.snd_backfill curriculum now
  have hrow (id : String) : entered.row? id = record.row? id := record.row?_ensureEntryGate now id
  have hopen (gate : UInt32) : migrated.isUnlocked gate = entered.isUnlocked gate :=
    entered.isUnlocked_backfill curriculum now gate
  refine ⟨fun id row hold => ?_, fun gate entry hentry hkept => ?_, fun gate => ?_,
    fun gate hgate hunlocked id hid => ?_, fun id row hnew hthere => ?_, fun added hmem => ?_, ?_, ?_,
    hset.ensureEntryGate_eq later, migrated.backfill_eq_of_missing curriculum later hset.2⟩
  · change migrated.row? id = some row
    have hentered : entered.row? id = some row := (hrow id).trans hold
    rw [row?_backfill, row?_addRows, hentered, Option.some_or]
  · rw [gates_backfill]
    exact record.gates_ensureEntryGate now hentry hkept
  · rw [hopen]
    exact record.isUnlocked_ensureEntryGate now gate
  · apply ExtTreeMap.mem_iff_isSome_getElem?.mpr
    exact (migrated.missing_eq_nil_iff curriculum).mp hset.2 gate hgate hunlocked id hid
  · obtain ⟨added, hmem, hskill, -⟩ :=
      entered.exists_missing_of_row?_backfill now ((hrow id).trans hnew) hthere
    exact ⟨added, htold ▸ hmem, hskill⟩
  · rw [htold] at hmem
    obtain ⟨gate, -, -, -, -, hnew, -⟩ := (entered.mem_missing_iff curriculum).mp hmem
    exact ⟨(hrow added.skill).symm.trans hnew, entered.row?_backfill_of_mem_missing now hwell hmem⟩
  · have habsent (id : String) : (!record.skills.contains id) = (entered.row? id).isNone := by
      rw [hrow, row?, ExtTreeMap.contains_eq_isSome_getElem?, Option.not_isSome]
    simp only [htold, hopen, habsent]
    exact entered.missing_eq_map_filter hwell
  · rw [htold]
    exact entered.nodup_missing hwell

/-- A record with a row that is no longer taught, and with gate 3 open behind a locked gate 2. -/
theorem setting_up_only_adds_over_gap :
    let record := ((fresh "ana" .epoch).addRow "old" .reliable .epoch).unlock 3 .epoch
    let entered := (record.ensureEntryGate .epoch).1
    let migrated := (entered.backfill .standard .epoch).1
    (∀ gate, migrated.isUnlocked gate = true ↔ gate = 1 ∨ gate = 3) ∧
      migrated.skills["old"]? = some (.fresh "old" .reliable .epoch) ∧
      (entered.backfill .standard .epoch).2.map Backfill.skill =
        ["fold_trash_preflop", "raise_premium_preflop", "pot_odds_call", "semi_bluff_draws",
          "check_behind_weak_river"] ∧
      migrated.backfill .standard .epoch = (migrated, []) := by
  intro record entered migrated
  obtain ⟨hrows, -, hgates, -, -, -, -, -, -, hagain⟩ :=
    record.setting_up_only_adds .standard (.inl rfl) .epoch .epoch
  have hrecord (gate : UInt32) : record.isUnlocked gate = true ↔ gate = 3 := by
    have hlocked : ((fresh "ana" .epoch).addRow "old" .reliable .epoch).isUnlocked gate = false := by
      rw [addRow_eq]
      exact isUnlocked_fresh .epoch "ana" gate
    rw [isUnlocked_unlock, hlocked, Bool.or_false, decide_eq_true_iff, eq_comm]
  refine ⟨fun gate => ?_, hrows "old" _ (by decide), by decide, hagain⟩
  rw [hgates, hrecord]

end PlayerRecord

end PokerCoach
