import PokerCoach.Proofs.Curriculum.Rebuilding
import PokerCoach.Proofs.Engine.Complete
import PokerCoach.Proofs.Engine.Windows
import PokerCoach.Proofs.Progress.Grounded

/-!
# What is told of locked gates

A summary tells the level of a skill if the skill has a row, whatever its gate is. The skills of open
gates all have rows; a skill of a locked gate has one only if a curriculum of before taught it at a
lower gate that is open.
-/

namespace PokerCoach

open Std Time

namespace PlayerRecord

variable {record : PlayerRecord} {curriculum : Curriculum} {curricula : List Curriculum}

theorem isSome_row?_of_isUnlocked (hwell : curriculum.WellFormed)
    (hmissing : record.missing curriculum = []) {skill : Skill} (hskill : skill ∈ curriculum.skills)
    (hopen : record.isUnlocked skill.gate = true) : (record.row? skill.id).isSome = true :=
  Option.isSome_iff_exists.mpr
    (exists_row_of_comesUp hwell hmissing ⟨skill, hskill, rfl, hopen⟩)

/-- The row of a skill at a locked gate goes back to a curriculum with the skill further down. -/
theorem Grounded.exists_lower (hgrounded : record.Grounded curricula)
    (hwell : curriculum.WellFormed) (haccepted : ∀ other ∈ curricula, other.WellFormed)
    {skill : Skill} (hskill : skill ∈ curriculum.skills)
    (hlocked : record.isUnlocked skill.gate = false)
    (hrow : (record.row? skill.id).isSome = true) :
    ∃ other ∈ curricula, ∃ taught, other.skill? skill.id = some taught ∧
      taught.gate < skill.gate ∧ record.isUnlocked taught.gate = true := by
  obtain ⟨row, hrow⟩ := Option.isSome_iff_exists.mp hrow
  obtain ⟨other, hother, taught, htaught, hid, hopen⟩ := hgrounded.taught skill.id row hrow
  have hfound : other.skill? skill.id = some taught := hid ▸ (haccepted other hother).skill?_eq htaught
  obtain ⟨gate, hgate, -, hnumber⟩ := hwell.exists_gate_of_skill hskill
  have hone : 1 ≤ skill.gate := by
    rw [hnumber, UInt32.le_iff_toNat_le]
    exact (hwell.number_le hgate).1
  refine ⟨other, hother, taught, hfound, ?_, hopen⟩
  refine UInt32.not_le.mp fun hle => ?_
  exact Bool.false_ne_true (hlocked.symm.trans (hgrounded.below _ _ hopen hone hle))

end PlayerRecord

namespace Engine

theorem invariant_grounded {curriculum : Curriculum} (hwell : curriculum.WellFormed)
    {curricula : List Curriculum} (hmem : curriculum ∈ curricula) :
    RecordInvariant curriculum fun record => record.Grounded curricula where
  fresh player now :=
    ((PlayerRecord.opened_fresh player now).grounded hwell hmem).setUp hwell hmem now
  onboard _ _ _ _ _ honboard := PlayerRecord.grounded_of_onboard? hwell hmem honboard
  setUp _ now hgrounded := hgrounded.setUp hwell hmem now
  learn _ _ outcome marginalCredit now hgrounded hskill hcomes _ :=
    hgrounded.learn hwell hmem hskill hcomes outcome marginalCredit now

/-- The curricula of a run: the first one and those of its restarts. -/
def curricula (course : Course) (operations : List Operation) : List Curriculum :=
  (course :: operations.filterMap Operation.restarts?).map Course.curriculum

theorem curriculum_run_mem {σ : Type} [RecordStore σ] (engine : Engine σ)
    (operations : List Operation) :
    (engine.run operations).curriculum ∈ curricula engine.course operations := by
  induction operations generalizing engine with
  | nil => exact List.mem_cons_self
  | cons operation rest ih =>
      have hrest := ih (engine.step operation)
      cases hrestarts : operation.restarts? with
      | none =>
          rw [curricula, List.filterMap_cons_none hrestarts]
          rwa [engine.course_step hrestarts] at hrest
      | some course =>
          obtain ⟨journal, rfl⟩ := Operation.restarts?_eq_some hrestarts
          rw [curricula, List.filterMap_cons_some hrestarts]
          exact List.mem_cons_of_mem _ hrest

variable {σ : Type} [RecordStore σ] [LawfulStore σ]

theorem wellFormed_of_mem_curricula {course : Course} (haccepted : course.curriculum.Accepted)
    {operations : List Operation}
    (htaught : ∀ operation ∈ operations, ∀ other, operation.restarts? = some other →
      other.curriculum.Accepted) : ∀ curriculum ∈ curricula course operations,
      curriculum.WellFormed := by
  intro curriculum hmem
  obtain ⟨other, hother, rfl⟩ := List.mem_map.mp hmem
  rcases List.mem_cons.mp hother with rfl | hrestarted
  · exact haccepted.wellFormed
  · obtain ⟨operation, hoperation, hrestarts⟩ := List.mem_filterMap.mp hrestarted
    exact (htaught operation hoperation other hrestarts).wellFormed

theorem grounded_reached {store : σ} (hempty : ∀ player, held store player = none)
    {course : Course} (haccepted : course.curriculum.Accepted) (journal : Option Journal)
    {operations : List Operation}
    (htaught : ∀ operation ∈ operations, ∀ other, operation.restarts? = some other →
      other.curriculum.Accepted) (player : String) :
    ((reached store course journal operations).desk player).All fun record =>
      record.Grounded (curricula course operations) := by
  refine (keyed_launch_of_empty hempty course journal).all_run ?_ ?_ ?_
  · intro operation hmem other hrestarts
    have hother : other ∈ operations.filterMap Operation.restarts? :=
      List.mem_filterMap.mpr ⟨operation, hmem, hrestarts⟩
    exact invariant_grounded (htaught operation hmem other hrestarts).wellFormed
      (List.mem_map_of_mem (List.mem_cons_of_mem course hother))
  · exact invariant_grounded haccepted.wellFormed List.mem_cons_self
  · exact all_launch (hempty player) course journal _

/-- The record that is told of is grounded, and no row is missing in it. -/
theorem grounded_of_progress {store : σ} (hempty : ∀ player, held store player = none)
    {course : Course} (haccepted : course.curriculum.Accepted) (journal : Option Journal)
    {operations : List Operation}
    (htaught : ∀ operation ∈ operations, ∀ other, operation.restarts? = some other →
      other.curriculum.Accepted) {player : String} {now : Instant} {record : PlayerRecord}
    (hrecord : ((reached store course journal operations).progress player now).1 = .ok record) :
    record.Grounded (curricula course operations) ∧
      record.missing (reached store course journal operations).curriculum = [] := by
  obtain ⟨hwell, hcomplete⟩ :=
    complete_reached (player_of_held_empty hempty) haccepted journal htaught player
  have hall := grounded_reached hempty haccepted journal htaught player
  have hmem : (reached store course journal operations).curriculum ∈ curricula course operations :=
    curriculum_run_mem _ operations
  rcases exists_of_progress hrecord with ⟨slot, hcached, rfl⟩ | ⟨stored, hstored, rfl⟩
  · exact ⟨hall.cached slot hcached, hcomplete slot hcached⟩
  · exact ⟨(hall.stored stored hstored).backfill hwell hmem now, stored.missing_backfill _ now⟩

/-- Whatever curricula are accepted one after the other, and whatever fails: the summaries are those
of the skills of the curriculum in force. A skill of an open gate has a level. A skill of a locked
gate has none, unless a curriculum of before taught it at a lower gate, and that gate is open. -/
theorem summaries_have_levels_of_open_gates (store : σ)
    (hempty : ∀ player, held store player = none) (course : Course)
    (haccepted : course.curriculum.Accepted) (journal : Option Journal)
    (operations : List Operation)
    (htaught : ∀ operation ∈ operations, ∀ other, operation.restarts? = some other →
      other.curriculum.Accepted) {player : String} {now : Instant} {record : PlayerRecord}
    (hrecord : ((reached store course journal operations).progress player now).1 = .ok record) :
    let engine := reached store course journal operations
    ∃ summaries, (engine.skillSummaries player now).1 = .ok summaries ∧
      (summaries.map fun summary => (summary.skill, summary.gate)) =
        (engine.curriculum.skills.map fun skill => (skill.id, skill.gate)) ∧
      ∀ summary ∈ summaries,
        (summary.level = none → record.isUnlocked summary.gate = false) ∧
        (record.isUnlocked summary.gate = false → summary.level = none ∨
          ∃ other ∈ curricula course operations, ∃ taught,
            other.skill? summary.skill = some taught ∧ taught.gate < summary.gate ∧
              record.isUnlocked taught.gate = true) := by
  intro engine
  obtain ⟨hgrounded, hmissing⟩ :=
    grounded_of_progress hempty haccepted journal htaught hrecord
  have hcurricula := wellFormed_of_mem_curricula haccepted htaught
  have hwell : engine.curriculum.WellFormed :=
    hcurricula _ (curriculum_run_mem _ operations)
  refine ⟨_, skillSummaries_of_progress hrecord, ?_, ?_⟩
  · rw [List.map_map]
    rfl
  · intro summary hmem
    obtain ⟨skill, hskill, rfl⟩ := List.mem_map.mp hmem
    have hlevel : (summaryOf engine.settings record skill).level = none ↔
        record.row? skill.id = none := Option.map_eq_none_iff
    constructor
    · intro hnone
      by_contra hlocked
      have hopen : record.isUnlocked skill.gate = true := eq_true_of_ne_false hlocked
      have hrow := PlayerRecord.isSome_row?_of_isUnlocked hwell hmissing hskill hopen
      rw [hlevel.mp hnone] at hrow
      cases hrow
    · intro hlocked
      cases hrow : record.row? skill.id with
      | none => exact .inl (hlevel.mpr hrow)
      | some row =>
          right
          exact hgrounded.exists_lower hwell hcurricula hskill hlocked (hrow ▸ rfl)

/-- A skill that a new gate moves up, from one locked gate to another. -/
theorem summaries_have_levels_of_open_gates_with_one_more :
    let skill (id : String) (gate : UInt32) : Skill := { id, name := id, gate }
    let gate (number : UInt32) (id : String) : Gate :=
      { number, name := "", requiredReliable := 1, skills := [skill id number] }
    let before : Curriculum := ⟨[gate 1 "fold_trash_preflop", gate 2 "pot_odds_call"]⟩
    let after : Curriculum :=
      ⟨[gate 1 "fold_trash_preflop", gate 2 "cbet_dry_flop", gate 3 "pot_odds_call"]⟩
    let engine := reached MemoryStore.empty { curriculum := before } none
      [.onboard "ana" .beginner .epoch, .restart { curriculum := after } none]
    ∃ summaries, (engine.skillSummaries "ana" .epoch).1 = .ok summaries ∧
      ∃ summary ∈ summaries, summary.skill = "pot_odds_call" ∧ summary.gate = 3 ∧
        summary.level = none := by
  intro skill gate before after engine
  have hbefore : before.Accepted :=
    Curriculum.WellFormed.accepted (by decide) (by decide) (by decide)
  have hafter : after.Accepted :=
    Curriculum.WellFormed.accepted (by decide) (by decide) (by decide)
  have htaught : ∀ operation ∈ ([.onboard "ana" .beginner .epoch,
      .restart { curriculum := after } none] : List Operation),
      ∀ other, operation.restarts? = some other → other.curriculum.Accepted := by
    simpa [Operation.restarts?] using hafter
  have hlocked : (engine.progress "ana" .epoch).1.toOption.map
      (fun record => (record.isUnlocked 2, record.isUnlocked 3)) = some (false, false) := by
    decide +kernel
  cases hrecord : (engine.progress "ana" .epoch).1 with
  | error error =>
      rw [hrecord] at hlocked
      cases hlocked
  | ok record =>
      rw [hrecord] at hlocked
      obtain ⟨htwo, hthree⟩ := Prod.mk.inj (Option.some.inj hlocked)
      obtain ⟨summaries, htold, hgates, hlevels⟩ :=
        summaries_have_levels_of_open_gates MemoryStore.empty MemoryStore.find?_empty
          { curriculum := before } hbefore none _ htaught hrecord
      have hmoved : ("pot_odds_call", (3 : UInt32)) ∈
          summaries.map fun summary => (summary.skill, summary.gate) := by
        rw [hgates]
        decide
      obtain ⟨summary, hsummary, hpair⟩ := List.mem_map.mp hmoved
      obtain ⟨hskill, hgate⟩ := Prod.mk.inj hpair
      refine ⟨summaries, htold, summary, hsummary, hskill, hgate, ?_⟩
      rcases (hlevels summary hsummary).2 (hgate ▸ hthree) with
        hnone | ⟨other, hother, taught, hfound, hlower, hopen⟩
      · exact hnone
      · rw [hskill] at hfound
        rw [hgate] at hlower
        -- The first curriculum has the skill at gate 2, which is locked, and the second at gate 3.
        rcases List.mem_pair.mp hother with rfl | rfl
        · cases hfound
          cases htwo.symm.trans hopen
        · cases hfound
          exact absurd hlower (UInt32.lt_irrefl 3)

/-- A skill that a restart moves up, from an open gate to a locked one, keeps its level. -/
theorem summary_shows_level_of_locked_gate :
    let skill (id : String) (gate : UInt32) : Skill := { id, name := id, gate }
    let before : Curriculum :=
      ⟨[{ number := 1, name := "", requiredReliable := 1
          skills := [skill "fold_trash_preflop" 1, skill "pot_odds_call" 1] }]⟩
    let after : Curriculum :=
      ⟨[{ number := 1, name := "", requiredReliable := 1, skills := [skill "fold_trash_preflop" 1] },
        { number := 2, name := "", requiredReliable := 1, skills := [skill "pot_odds_call" 2] }]⟩
    let engine := reached MemoryStore.empty { curriculum := before } none
      [.onboard "ana" .beginner .epoch, .restart { curriculum := after } none]
    (before.Accepted ∧ after.Accepted) ∧
      ((engine.progress "ana" .epoch).1.toOption.map PlayerRecord.openGates = some [1]) ∧
      (engine.skillSummaries "ana" .epoch).1.toOption.map
          (List.map fun summary => (summary.skill, summary.gate, summary.level)) =
        some [("fold_trash_preflop", 1, some .introduced), ("pot_odds_call", 2, some .introduced)] := by
  intro skill before after engine
  have hbefore : before.Accepted :=
    Curriculum.WellFormed.accepted (by decide) (by decide) (by decide)
  have hafter : after.Accepted :=
    Curriculum.WellFormed.accepted (by decide) (by decide) (by decide)
  exact ⟨⟨hbefore, hafter⟩, by decide +kernel⟩

end Engine

end PokerCoach
