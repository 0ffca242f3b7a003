import PokerCoach.Proofs.Engine.Draft
import Mathlib.Logic.Relation

/-!
# Moves on a desk

All that can happen on the desk of one player. Each operation of an engine makes some of these moves
on each desk, in some order; what every move keeps, every run keeps.
-/

namespace PokerCoach

open Std Time

namespace Desk

/-- The desk with a record that has changed, which is written if it is durable. -/
def save (desk : Desk) (slot : Slot) (worked : Bool) : Desk :=
  if slot.durable then (desk.hold slot).write slot.record worked else desk.hold slot

theorem All.save {desk : Desk} {holds : PlayerRecord → Prop} (hall : desk.All holds) {slot : Slot}
    (hslot : holds slot.record) (worked : Bool) : (desk.save slot worked).All holds := by
  unfold Desk.save
  split
  · exact (hall.hold hslot).write hslot worked
  · exact hall.hold hslot

inductive Move (curriculum : Curriculum) (player : String) (desk : Desk) : Desk → Prop
  | read (worked : Bool) : Move curriculum player desk (desk.read player worked)
  | load {loaded : Loaded} {after : Desk} (now : Instant)
      (hloads : desk.Loads curriculum player now loaded after) :
      Move curriculum player desk after
  | learn (slot : Slot) (skill : Skill) (outcome : Outcome) (marginalCredit : Float) (now : Instant)
      (worked : Bool) (hcached : desk.cached = some slot)
      (hskill : curriculum.skill? skill.id = some skill) (happlicable : outcome.isApplicable = true)
      (hcomes : slot.record.ComesUp curriculum skill.id) :
      Move curriculum player desk
        (desk.save
          { slot with record := slot.record.learn curriculum skill outcome marginalCredit now }
          worked)
  | release {after : Desk} (hreleases : desk.Releases after) : Move curriculum player desk after
  | onboard {record : PlayerRecord} {rows : List Backfill} (experience : Experience) (now : Instant)
      (hcached : desk.cached = none) (hstored : desk.stored = none)
      (honboard : (PlayerRecord.fresh player now).onboard? curriculum experience now =
        some (record, rows)) :
      Move curriculum player desk (((desk.read player true).write record true).hold ⟨record, true⟩)
  /-- A new player whose record cannot be written stays new. -/
  | decline {record : PlayerRecord} {rows : List Backfill} (experience : Experience) (now : Instant)
      (hcached : desk.cached = none) (hstored : desk.stored = none)
      (honboard : (PlayerRecord.fresh player now).onboard? curriculum experience now =
        some (record, rows)) :
      Move curriculum player desk ((desk.read player true).write record false)

abbrev Moves (curriculum : Curriculum) (player : String) : Desk → Desk → Prop :=
  Relation.ReflTransGen (Move curriculum player)

end Desk

namespace Turn

variable {σ : Type} [RecordStore σ] [LawfulStore σ] (turn : Turn (TracedStore σ))

/-- The desk during a turn: the record of the turn is the cached one. -/
def desk (player : String) : Desk :=
  (turn.engine.desk player).hold turn.slot

@[simp]
theorem desk_engine_emitAll (happenings : List Happening) (now : Instant) (player : String) :
    (turn.emitAll happenings now).engine.desk player = turn.engine.desk player := by
  unfold emitAll
  split
  · exact turn.engine.desk_emitAll happenings now player
  · rfl

@[simp]
theorem desk_engine_recordOutcome (skill : Skill) (outcome : Outcome) (now : Instant)
    (player : String) :
    (turn.recordOutcome skill outcome now).engine.desk player = turn.engine.desk player := by
  unfold recordOutcome
  rw [desk_engine_emitAll]

@[simp]
theorem desk_engine_openGate (skill : String) (now : Instant) (player : String) :
    (turn.openGate skill now).engine.desk player = turn.engine.desk player := by
  cases hearned : turn.slot.record.earnedGate? turn.engine.curriculum skill with
  | none => rw [turn.openGate_eq_of_none hearned]
  | some gate => simp only [openGate, PlayerRecord.checkGate, hearned, desk_engine_emitAll]

/-- Saving a turn is saving its slot on the desk of its player and touches no other desk. -/
theorem desk_save {player : String} (hplayer : turn.slot.record.player = player) (now : Instant) :
    ∃ worked, (turn.save now).desk player = (turn.desk player).save turn.slot worked := by
  unfold save Desk.save
  split
  · refine ⟨(turn.engine.persist turn.slot.record now).1, ?_⟩
    have hdesk := turn.engine.desk_persist turn.slot.record now player
    rw [if_pos hplayer] at hdesk
    simp only [desk, hdesk]
    rfl
  · exact ⟨true, rfl⟩

theorem desk_learned {player : String} (hplayer : turn.slot.record.player = player) (skill : Skill)
    (evaluation : Evaluation) (now : Instant) :
    ∃ worked, (turn.learned skill evaluation now).desk player =
      (turn.desk player).save (turn.learned skill evaluation now).slot worked := by
  let opened :=
    ((turn.note evaluation).recordOutcome skill evaluation.outcome now).openGate skill.id now
  have hslot : (turn.learned skill evaluation now).slot = opened.slot := slot_save _ now
  have hdesk : opened.engine.desk player = turn.engine.desk player := by
    simp only [opened, desk_engine_openGate, desk_engine_recordOutcome]
    rfl
  have howner : opened.slot.record.player = player := by
    rw [← hslot, slot_learned, ← hplayer]
    exact (PlayerRecord.learn_extends _ _ now skill _ _).player
  obtain ⟨worked, hsave⟩ := opened.desk_save howner now
  refine ⟨worked, ?_⟩
  rw [hslot, ← show opened.save now = turn.learned skill evaluation now from rfl, hsave]
  simp only [desk, hdesk]
  rfl

theorem desk_engine_save_of_ne {player : String} (hplayer : turn.slot.record.player ≠ player)
    (now : Instant) : (turn.save now).engine.desk player = turn.engine.desk player := by
  unfold save
  split
  · exact (turn.engine.desk_persist turn.slot.record now player).trans (if_neg hplayer)
  · rfl

theorem desk_engine_learned_of_ne {player : String} (hplayer : turn.slot.record.player ≠ player)
    (skill : Skill) (evaluation : Evaluation) (now : Instant) :
    (turn.learned skill evaluation now).engine.desk player = turn.engine.desk player := by
  have howner :
      (turn.learned skill evaluation now).slot.record.player = turn.slot.record.player := by
    rw [slot_learned]
    exact (PlayerRecord.learn_extends _ _ now skill _ _).player
  rw [learned, slot_save] at howner
  rw [learned, desk_engine_save_of_ne _ (howner ▸ hplayer), desk_engine_openGate,
    desk_engine_recordOutcome]
  rfl

/-- A turn on a record that only stands in for another writes nothing. -/
theorem desk_engine_learned_of_transient (htransient : turn.slot.durable = false) (skill : Skill)
    (evaluation : Evaluation) (now : Instant) (player : String) :
    (turn.learned skill evaluation now).engine.desk player = turn.engine.desk player := by
  have hdurable : (((turn.note evaluation).recordOutcome skill evaluation.outcome now).openGate
      skill.id now).slot.durable = false := by
    rw [durable_openGate, durable_recordOutcome]
    exact htransient
  rw [learned, save, hdurable, if_neg Bool.false_ne_true, desk_engine_openGate,
    desk_engine_recordOutcome]
  rfl

variable (session : String) (live : LiveAction) (spot : Situation) (now : Instant)

theorem desk_engine_judge_of_transient (htransient : turn.slot.durable = false) (skill : String)
    (player : String) :
    (turn.judge session live spot now skill).engine.desk player = turn.engine.desk player := by
  rcases turn.judge_cases session now live spot skill with
    ⟨-, hjudge⟩ | ⟨definition, -, -, -, hjudge⟩
  · rw [hjudge, note]
  · rw [hjudge]
    dsimp only
    rw [Engine.desk_remember, turn.desk_engine_learned_of_transient htransient]

theorem moves_judge {player skill : String} (hplayer : turn.slot.record.player = player)
    (hcomes : turn.slot.record.ComesUp turn.engine.curriculum skill) :
    Desk.Moves turn.engine.curriculum player (turn.desk player)
      ((turn.judge session live spot now skill).desk player) := by
  rcases turn.judge_cases session now live spot skill with
    ⟨-, hjudge⟩ | ⟨definition, rfl, hskill, happlicable, hjudge⟩
  · rw [hjudge]
    exact .refl
  · obtain ⟨worked, hlearned⟩ := turn.desk_learned hplayer definition
      (turn.engine.rules.evaluate definition.id live spot) now
    rw [hjudge]
    simp only [desk, Engine.desk_remember] at hlearned ⊢
    rw [hlearned, slot_learned]
    exact .single (.learn turn.slot definition _ _ now worked rfl hskill happlicable hcomes)

theorem desk_judge_of_ne {player : String} (hplayer : turn.slot.record.player ≠ player)
    (skill : String) :
    (turn.judge session live spot now skill).engine.desk player = turn.engine.desk player := by
  rcases turn.judge_cases session now live spot skill with
    ⟨-, hjudge⟩ | ⟨definition, -, -, -, hjudge⟩
  · rw [hjudge, note]
  · rw [hjudge]
    dsimp only
    rw [Engine.desk_remember, turn.desk_engine_learned_of_ne hplayer]

/-! ### All evaluations of a turn -/

theorem desk_engine_foldl_judge_of_transient (htransient : turn.slot.durable = false)
    (skills : List String) (player : String) :
    (skills.foldl (judge session live spot now) turn).engine.desk player =
      turn.engine.desk player := by
  induction skills generalizing turn with
  | nil => rfl
  | cons skill rest ih =>
      rw [List.foldl_cons, ih _ (by rw [durable_judge, htransient]),
        desk_engine_judge_of_transient _ _ _ _ _ htransient]

theorem moves_foldl_judge {player : String} {skills : List String}
    (hplayer : turn.slot.record.player = player)
    (hcome : ∀ skill ∈ skills, turn.slot.record.ComesUp turn.engine.curriculum skill) :
    Desk.Moves turn.engine.curriculum player (turn.desk player)
      ((skills.foldl (judge session live spot now) turn).desk player) := by
  induction skills generalizing turn with
  | nil => exact .refl
  | cons skill rest ih =>
      have hext := turn.record_judge_extends session live spot now skill
      have hcurriculum : (turn.judge session live spot now skill).engine.curriculum =
          turn.engine.curriculum :=
        congrArg Course.curriculum (turn.course_judge session now skill)
      have hfirst := turn.moves_judge session live spot now hplayer (hcome skill List.mem_cons_self)
      have hrest := ih (turn.judge session live spot now skill) (hext.player.trans hplayer)
        fun other hmem => by
          rw [hcurriculum]
          exact hext.comesUp (hcome other (List.mem_cons_of_mem skill hmem))
      rw [hcurriculum] at hrest
      exact hfirst.trans hrest

theorem desk_foldl_judge_of_ne {player : String} (hplayer : turn.slot.record.player ≠ player)
    (skills : List String) :
    (skills.foldl (judge session live spot now) turn).engine.desk player =
      turn.engine.desk player := by
  induction skills generalizing turn with
  | nil => rfl
  | cons skill rest ih =>
      have hext := turn.record_judge_extends session live spot now skill
      rw [List.foldl_cons, ih _ (by rwa [hext.player]), desk_judge_of_ne _ _ _ _ _ hplayer]

end Turn

end PokerCoach
