import PokerCoach.Proofs.Journal.Changes
import PokerCoach.Proofs.Progress.Sound
import PokerCoach.Proofs.Engine.Run

/-!
# What operations tell

The journal of an engine that can append to it takes in happenings in their order. A decision tells
what was done to load the record and what each evaluation did, the same that it reports; onboarding
tells where the player starts; nothing else tells anything. As long as a record only stands in for
one that could not be read, decisions on it tell nothing.
-/

namespace PokerCoach

open Std Time

/-! ### Evaluations -/

namespace Draft

variable (course : Course) (live : LiveAction) (spot : Situation) (now : Instant)

/-- What an evaluation tells: nothing, unless it applies to a skill that is taught. -/
def happenings (draft : Draft) (skill : String) : List Happening :=
  let evaluation := course.rules.evaluate skill live spot
  if evaluation.outcome.isApplicable then
    match course.curriculum.skill? skill with
    | none => []
    | some definition =>
        draft.record.learnHappenings course.curriculum now definition evaluation.outcome
          course.settings.marginalCredit
  else []

def happeningsAll : Draft → List String → List Happening
  | _, [] => []
  | draft, skill :: rest =>
      draft.happenings course live spot now skill ++
        happeningsAll (draft.judge course live spot now skill) rest

theorem changes_practice (draft : Draft) (skill : Skill) (outcome : Outcome)
    (marginalCredit : Float) :
    (draft.practice skill outcome marginalCredit now).report.changes =
      draft.report.changes ++ .ofHappenings
        (draft.record.practiceHappenings now skill outcome marginalCredit) := by
  rw [PlayerRecord.practiceHappenings, Changes.ofHappenings_ofTransition]
  simp [practice, DecisionReport.changes, Changes.append_def]

theorem changes_advance (draft : Draft) (curriculum : Curriculum) (skill : String) :
    (draft.advance curriculum skill now).report.changes =
      draft.report.changes ++
        .ofHappenings (draft.record.advanceHappenings curriculum now skill) := by
  cases hearned : draft.record.earnedGate? curriculum skill with
  | none => simp [advance, PlayerRecord.advanceHappenings, hearned]
  | some gate =>
      simp only [advance, PlayerRecord.advanceHappenings, hearned, PlayerRecord.snd_backfill,
        Changes.ofHappenings_gate]
      simp [DecisionReport.changes, Changes.append_def]

/-- An evaluation that is only noted tells nothing, and one that is learned from what it changes. -/
theorem happenings_cases (draft : Draft) (skill : String) :
    let evaluation := course.rules.evaluate skill live spot
    (draft.judge course live spot now skill = draft.note evaluation ∧
      draft.happenings course live spot now skill = []) ∨
    ∃ definition, definition.id = skill ∧ course.curriculum.skill? skill = some definition ∧
      draft.judge course live spot now skill =
        ((draft.note evaluation).practice definition evaluation.outcome
          course.settings.marginalCredit now).advance course.curriculum definition.id now ∧
      draft.happenings course live spot now skill =
        draft.record.learnHappenings course.curriculum now definition evaluation.outcome
          course.settings.marginalCredit := by
  rcases draft.judge_cases course live spot now skill with
    ⟨hskip, hjudge⟩ | ⟨definition, rfl, hskill, happlicable, hjudge⟩
  · refine .inl ⟨hjudge, ?_⟩
    unfold happenings
    dsimp only
    split
    · rename_i happlicable
      rw [hskip happlicable]
    · rfl
  · refine .inr ⟨definition, rfl, hskill, hjudge, ?_⟩
    simp only [happenings, happlicable, hskill, if_true]

theorem changes_judge (draft : Draft) (skill : String) :
    (draft.judge course live spot now skill).report.changes =
      draft.report.changes ++ .ofHappenings (draft.happenings course live spot now skill) := by
  rcases draft.happenings_cases course live spot now skill with
    ⟨hjudge, hnone⟩ | ⟨definition, -, -, hjudge, htold⟩
  · rw [hjudge, hnone]
    exact (Changes.append_empty _).symm
  · rw [hjudge, htold, changes_advance, changes_practice, Changes.append_assoc,
      PlayerRecord.learnHappenings, Changes.ofHappenings_append]
    rfl

theorem changes_foldl_judge (draft : Draft) (skills : List String) :
    (skills.foldl (judge course live spot now) draft).report.changes =
      draft.report.changes ++
        .ofHappenings (draft.happeningsAll course live spot now skills) := by
  induction skills generalizing draft with
  | nil => exact (Changes.append_empty _).symm
  | cons skill rest ih =>
      rw [List.foldl_cons, ih, changes_judge, happeningsAll, Changes.ofHappenings_append,
        Changes.append_assoc]

theorem record_judge (draft : Draft) (skill : String) :
    (draft.judge course live spot now skill).record = draft.record ∧
        draft.happenings course live spot now skill = [] ∨
      ∃ definition outcome, definition.id = skill ∧
        course.curriculum.skill? skill = some definition ∧
        (draft.judge course live spot now skill).record =
          draft.record.learn course.curriculum definition outcome course.settings.marginalCredit
            now ∧
        draft.happenings course live spot now skill =
          draft.record.learnHappenings course.curriculum now definition outcome
            course.settings.marginalCredit := by
  rcases draft.happenings_cases course live spot now skill with
    ⟨hjudge, hnone⟩ | ⟨definition, hid, hskill, hjudge, htold⟩
  · exact .inl ⟨by rw [hjudge, note], hnone⟩
  · refine .inr ⟨definition, _, hid, hskill, ?_, htold⟩
    rw [hjudge, record_advance]
    rfl

theorem isChangeOf_of_mem_happeningsAll {draft : Draft} {skills : List String}
    {happening : Happening} (hmem : happening ∈ draft.happeningsAll course live spot now skills) :
    happening.IsChangeOf draft.record.player := by
  induction skills generalizing draft with
  | nil => exact absurd hmem List.not_mem_nil
  | cons skill rest ih =>
      rcases List.mem_append.mp hmem with hmem | hmem
      · rcases draft.record_judge course live spot now skill with
          ⟨-, hnone⟩ | ⟨definition, outcome, -, -, -, htold⟩
        · rw [hnone] at hmem
          exact absurd hmem List.not_mem_nil
        · rw [htold] at hmem
          exact draft.record.isChangeOf_of_mem_learnHappenings course.curriculum now hmem
      · have hchange := ih hmem
        rcases draft.record_judge course live spot now skill with
          ⟨hsame, -⟩ | ⟨definition, outcome, -, -, hlearned, -⟩
        · rwa [hsame] at hchange
        · rwa [hlearned,
            (draft.record.learn_extends course.curriculum now definition outcome _).player]
              at hchange

/-- What evaluations of skills that come up tell leads to the record that they leave. -/
theorem replay?_happeningsAll (hwell : course.curriculum.WellFormed) {draft : Draft}
    (hsound : draft.record.Sound course.curriculum) {skills : List String}
    (hcome : ∀ skill ∈ skills, draft.record.ComesUp course.curriculum skill) :
    draft.record.attainment.replay? course.curriculum
        (draft.happeningsAll course live spot now skills) =
      some (skills.foldl (judge course live spot now) draft).record.attainment := by
  induction skills generalizing draft with
  | nil => rfl
  | cons skill rest ih =>
      have hrest := fun other hmem => hcome other (List.mem_cons_of_mem skill hmem)
      rw [happeningsAll, Attainment.replay?_append, List.foldl_cons]
      rcases draft.record_judge course live spot now skill with
        ⟨hsame, hnone⟩ | ⟨definition, outcome, rfl, hskill, hlearned, htold⟩
      · rw [hnone]
        have hstill : (draft.judge course live spot now skill).record.Sound course.curriculum :=
          hsame ▸ hsound
        have hlater := ih hstill (hsame ▸ hrest)
        rw [hsame] at hlater
        exact hlater
      · have hcomes := hcome definition.id List.mem_cons_self
        obtain ⟨row, hrow, hname⟩ := hsound.exists_row hwell hcomes
        have hext := draft.record.learn_extends course.curriculum now definition outcome
          course.settings.marginalCredit
        rw [htold, PlayerRecord.replay?_learn now hwell hrow hname, Option.bind_some, ← hlearned]
        exact ih (hlearned ▸ hsound.learn hwell hskill hcomes outcome _ now)
          fun other hmem => hlearned ▸ hext.comesUp (hrest other hmem)

end Draft

/-! ### The journal -/

namespace Journal

/-- Happenings of one time; one that cannot be appended is lost. -/
def appendAll (journal : Journal) (happenings : List Happening) (now : Instant) : Journal :=
  happenings.foldl
    (fun journal happening => failOpen journal (journal.append { time := now, happening })) journal

theorem appendAll_eq (journal : Journal) (happenings : List Happening) (now : Instant) :
    journal.appendAll happenings now =
      { journal with
        entries := journal.entries ++ if journal.blocked then [] else
          happenings.map fun happening => { time := now, happening } } := by
  induction happenings generalizing journal with
  | nil => simp [appendAll]
  | cons first rest ih =>
      have hrest := ih (failOpen journal (journal.append { time := now, happening := first }))
      unfold appendAll at hrest ⊢
      rw [List.foldl_cons, hrest]
      cases hblocked : journal.blocked with
      | true => simp [append, hblocked, failOpen]
      | false => simp [append, hblocked, failOpen]

end Journal

namespace Engine

section Tells

variable {σ : Type}

/-- All that the journal has taken in, without the times. -/
def happenings (engine : Engine σ) : List Happening :=
  engine.journal.elim [] fun journal => journal.entries.map Event.happening

/-- Whether appending to the journal works. -/
def Recording (engine : Engine σ) : Prop :=
  ∃ journal, engine.journal = some journal ∧ journal.blocked = false

/-- A journal that works takes in some happenings, and works afterwards. -/
def Tells (engine : Engine σ) (happenings : List Happening) (after : Engine σ) : Prop :=
  engine.Recording → after.Recording ∧ after.happenings = engine.happenings ++ happenings

theorem Tells.of_journal_eq {engine after : Engine σ} (hjournal : after.journal = engine.journal) :
    engine.Tells [] after := by
  rintro ⟨journal, hsome, hopen⟩
  exact ⟨⟨journal, hjournal.trans hsome, hopen⟩, by simp [Engine.happenings, hjournal]⟩

theorem Tells.trans {engine middle after : Engine σ} {first second : List Happening}
    (hfirst : engine.Tells first middle) (hsecond : middle.Tells second after) :
    engine.Tells (first ++ second) after := by
  intro hrecording
  obtain ⟨hmiddle, htold⟩ := hfirst hrecording
  obtain ⟨hafter, hmore⟩ := hsecond hmiddle
  exact ⟨hafter, by rw [hmore, htold, List.append_assoc]⟩

/-- The journal takes in some happenings at one time, as far as it takes in anything. -/
def TellsAt (engine : Engine σ) (now : Instant) (happenings : List Happening)
    (after : Engine σ) : Prop :=
  after.journal = engine.journal.map fun journal => journal.appendAll happenings now

namespace TellsAt

variable {engine middle after : Engine σ} {now : Instant}
  {happenings first second : List Happening}

theorem of_journal_eq (hjournal : after.journal = engine.journal) :
    engine.TellsAt now [] after :=
  hjournal.trans Option.map_id'.symm

theorem trans (hfirst : engine.TellsAt now first middle)
    (hsecond : middle.TellsAt now second after) :
    engine.TellsAt now (first ++ second) after := by
  unfold TellsAt at hfirst hsecond ⊢
  rw [hsecond, hfirst, Option.map_map]
  refine congrArg (Option.map · engine.journal) (funext fun journal => ?_)
  exact List.foldl_append.symm

/-- A step that leaves the journal alone tells nothing more. -/
theorem of_eq (htells : engine.TellsAt now happenings middle)
    (hjournal : after.journal = middle.journal) : engine.TellsAt now happenings after :=
  hjournal.trans htells

/-- Two steps on records that are both durable, or both not. -/
theorem trans_of_durable {durable : Bool}
    (hfirst : engine.TellsAt now (if durable then first else []) middle)
    (hsecond : middle.TellsAt now (if durable then second else []) after) :
    engine.TellsAt now (if durable then first ++ second else []) after := by
  have hboth := hfirst.trans hsecond
  cases durable with
  | false => exact hboth
  | true => exact hboth

theorem tells (htells : engine.TellsAt now happenings after) : engine.Tells happenings after := by
  rintro ⟨journal, hsome, hopen⟩
  have hafter := htells
  rw [TellsAt, hsome, Option.map_some, journal.appendAll_eq, hopen] at hafter
  refine ⟨⟨_, hafter, rfl⟩, ?_⟩
  simp [Engine.happenings, hafter, hsome, Function.comp_def]

end TellsAt

theorem tellsAt_emitAll (engine : Engine σ) (happenings : List Happening) (now : Instant) :
    engine.TellsAt now happenings (engine.emitAll happenings now) := by
  induction happenings generalizing engine with
  | nil => exact .of_journal_eq rfl
  | cons first rest ih =>
      have hfirst : engine.TellsAt now [first] (engine.emit first now) := rfl
      exact hfirst.trans (ih _)

variable (engine : Engine σ)

@[simp]
theorem journal_remember (id : String) (hand : UInt32) (evaluation : Evaluation) :
    (engine.remember id hand evaluation).journal = engine.journal := by
  unfold remember
  split <;> rfl

@[simp]
theorem journal_ensureSession (id owner : String) (now : Instant) :
    (engine.ensureSession id owner now).journal = engine.journal := by
  unfold ensureSession
  split <;> rfl

variable [RecordStore σ]

@[simp]
theorem journal_write (record : PlayerRecord) (now : Instant) :
    (engine.write record now).2.journal = engine.journal := by
  obtain ⟨health, hwrite⟩ := engine.exists_write_eq record now
  rw [hwrite]

@[simp]
theorem journal_persist (record : PlayerRecord) (now : Instant) :
    (engine.persist record now).2.journal = engine.journal :=
  engine.journal_write record now

@[simp]
theorem journal_release (player : String) (now : Instant) :
    (engine.release player now).journal = engine.journal := by
  unfold release
  split
  · rfl
  · rename_i slot _
    cases hdurable : slot.durable with
    | false => simp
    | true =>
        have hjournal := engine.journal_persist slot.record now
        simp only [if_true]
        split <;> exact hjournal

theorem journal_endSession (session : String) (now : Instant) :
    (engine.endSession session now).2.journal = engine.journal := by
  unfold endSession
  split
  · rfl
  · dsimp only
    split
    · rfl
    · exact journal_release _ _ now

end Tells

end Engine

/-! ### Loading -/

/-- What loading a record tells: what it opened and created. -/
def Loaded.happenings (loaded : Loaded) (player : String) : List Happening :=
  loaded.unlocked.map (.gateUnlocked player) ++ loaded.backfilled.map (.ofBackfill player)

namespace Engine

section Load

variable {σ : Type} [RecordStore σ] (engine : Engine σ)

theorem tellsAt_install (player : String) (source : Source) (now : Instant) :
    engine.TellsAt now
      (if source.isDurable then (engine.install player source now).1.happenings player else [])
      (engine.install player source now).2 := by
  cases hdurable : source.isDurable with
  | false =>
      simp only [install, hdurable]
      exact .of_journal_eq rfl
  | true =>
      have hsame : (engine.install player source now).1.happenings player =
          setupHappenings player ((source.record player now).ensureEntryGate now).2
            (((source.record player now).ensureEntryGate now).1.backfill
              engine.curriculum now).2 := by
        simp only [install, Loaded.happenings, setupHappenings]
        split <;> rfl
      rw [if_pos rfl, hsame]
      refine (engine.tellsAt_emitAll _ now).of_eq ?_
      simp only [install, hdurable, if_true]
      split
      · exact journal_persist _ _ now
      · rfl

theorem tellsAt_load (player : String) (now : Instant) :
    engine.TellsAt now
      (if (engine.load player now).1.slot.durable then
        (engine.load player now).1.happenings player else [])
      (engine.load player now).2 := by
  have hfetch : engine.TellsAt now [] (engine.fetch player).2 := .of_journal_eq rfl
  suffices htells : ∀ result, engine.load player now = result →
      engine.TellsAt now (if result.1.slot.durable then result.1.happenings player else [])
        result.2 from
    htells _ rfl
  intro result
  unfold load
  split
  · rintro rfl
    exact .of_journal_eq rfl
  · dsimp only
    split
    · rintro rfl
      exact hfetch.trans (tellsAt_install _ player _ now)
    · rintro rfl
      exact hfetch.trans (tellsAt_install _ player _ now)
    · rintro rfl
      exact hfetch
  · dsimp only
    split
    · rintro rfl
      exact hfetch.trans (tellsAt_install _ player _ now)
    · rintro rfl
      exact hfetch.trans (tellsAt_install _ player _ now)
    · rintro rfl
      exact .of_journal_eq rfl

end Load

end Engine

/-! ### Turns -/

namespace Turn

variable {σ : Type} (turn : Turn σ)

theorem tellsAt_emitAll (happenings : List Happening) (now : Instant) {engine : Engine σ}
    (hengine : turn.engine = engine) {durable : Bool} (hdurable : turn.slot.durable = durable) :
    engine.TellsAt now (if durable then happenings else [])
      (turn.emitAll happenings now).engine := by
  subst hengine hdurable
  unfold emitAll
  split
  · exact turn.engine.tellsAt_emitAll happenings now
  · exact .of_journal_eq rfl

theorem tellsAt_recordOutcome (skill : Skill) (outcome : Outcome) (now : Instant) :
    turn.engine.TellsAt now
      (if turn.slot.durable then turn.slot.record.practiceHappenings now skill outcome
        turn.engine.settings.marginalCredit else [])
      (turn.recordOutcome skill outcome now).engine := by
  unfold recordOutcome
  refine tellsAt_emitAll _ _ now ?_ ?_
  · rfl
  · rfl

theorem tellsAt_openGate (skill : String) (now : Instant) :
    turn.engine.TellsAt now
      (if turn.slot.durable then
        turn.slot.record.advanceHappenings turn.engine.curriculum now skill else [])
      (turn.openGate skill now).engine := by
  cases hearned : turn.slot.record.earnedGate? turn.engine.curriculum skill with
  | none =>
      rw [turn.openGate_eq_of_none hearned]
      simp only [PlayerRecord.advanceHappenings, hearned, ite_self]
      exact .of_journal_eq rfl
  | some gate =>
      have hplayer := (((turn.slot.record.unlock gate now).touch now).backfill_extends
        turn.engine.curriculum now).player
      simp only [openGate, PlayerRecord.checkGate, hearned, PlayerRecord.advanceHappenings, hplayer,
        PlayerRecord.snd_backfill]
      refine tellsAt_emitAll _ _ now ?_ ?_
      · rfl
      · rfl

variable [RecordStore σ]

theorem journal_save (now : Instant) : (turn.save now).engine.journal = turn.engine.journal := by
  unfold save
  split
  · exact turn.engine.journal_persist _ now
  · rfl

theorem tellsAt_learned (skill : Skill) (evaluation : Evaluation) (now : Instant) :
    turn.engine.TellsAt now
      (if turn.slot.durable then turn.slot.record.learnHappenings turn.engine.curriculum now skill
        evaluation.outcome turn.engine.settings.marginalCredit else [])
      (turn.learned skill evaluation now).engine := by
  have hrecorded := (turn.note evaluation).tellsAt_recordOutcome skill evaluation.outcome now
  have hopened := tellsAt_openGate
    ((turn.note evaluation).recordOutcome skill evaluation.outcome now) skill.id now
  rw [durable_recordOutcome, record_recordOutcome, show Engine.curriculum _ = _ from
    congrArg Course.curriculum ((turn.note evaluation).course_recordOutcome skill evaluation.outcome
      now)] at hopened
  exact (hrecorded.trans_of_durable hopened).of_eq (journal_save _ now)

variable (session : String) (live : LiveAction) (spot : Situation) (now : Instant)

theorem tellsAt_judge (skill : String) :
    turn.engine.TellsAt now
      (if turn.slot.durable then turn.draft.happenings turn.engine.course live spot now skill
        else [])
      (turn.judge session live spot now skill).engine := by
  rcases turn.judge_cases session now live spot skill with
    ⟨hskip, hjudge⟩ | ⟨definition, rfl, hskill, happlicable, hjudge⟩
  · have hnone : turn.draft.happenings turn.engine.course live spot now skill = [] := by
      unfold Draft.happenings
      dsimp only [Engine.course]
      split
      · rename_i happlicable
        rw [hskip happlicable]
      · rfl
    rw [hjudge, hnone, ite_self]
    exact .of_journal_eq rfl
  · have hlearn : turn.draft.happenings turn.engine.course live spot now definition.id =
        turn.slot.record.learnHappenings turn.engine.curriculum now definition
          (turn.engine.rules.evaluate definition.id live spot).outcome
          turn.engine.settings.marginalCredit := by
      simp only [Draft.happenings, Engine.course, happlicable, hskill, if_true]
      rfl
    rw [hjudge, hlearn]
    exact (turn.tellsAt_learned definition _ now).of_eq (Engine.journal_remember _ session _ _)

theorem tellsAt_foldl_judge (skills : List String) :
    turn.engine.TellsAt now
      (if turn.slot.durable then
        turn.draft.happeningsAll turn.engine.course live spot now skills else [])
      (skills.foldl (judge session live spot now) turn).engine := by
  induction skills generalizing turn with
  | nil =>
      rw [Draft.happeningsAll, ite_self]
      exact .of_journal_eq rfl
  | cons skill rest ih =>
      have hfirst := turn.tellsAt_judge session live spot now skill
      have hrest := ih (turn.judge session live spot now skill)
      rw [durable_judge, course_judge, draft_judge] at hrest
      rw [List.foldl_cons, Draft.happeningsAll]
      exact hfirst.trans_of_durable hrest

end Turn

/-! ### Decisions -/

theorem Loaded.ofHappenings (loaded : Loaded) (player : String) :
    Changes.ofHappenings (loaded.happenings player) =
      { unlocked := loaded.unlocked, backfilled := loaded.backfilled } := by
  rw [happenings, Changes.ofHappenings_append, Changes.ofHappenings_gateUnlocked,
    Changes.ofHappenings_ofBackfill]
  simp [Changes.append_def]

theorem Loaded.isChangeOf_of_mem_happenings {loaded : Loaded} {player : String}
    {happening : Happening} (hmem : happening ∈ loaded.happenings player) :
    happening.IsChangeOf player := by
  rcases List.mem_append.mp hmem with hmem | hmem
  · obtain ⟨gate, -, rfl⟩ := List.mem_map.mp hmem
    exact .gateUnlocked gate
  · obtain ⟨row, -, rfl⟩ := List.mem_map.mp hmem
    exact .backfilled row

namespace Engine

section Decision

variable {σ : Type} [RecordStore σ] (engine : Engine σ) (session : String) (decision : Decision)
  (live : LiveAction) (now : Instant)

/-- What a decision tells if its record is durable. -/
def decisionHappenings : List Happening :=
  (engine.loadFor session decision now).1.happenings decision.player ++
    (engine.startTurn session decision live now).draft.happeningsAll engine.course live
      (decision.situation (some live)) now
      (engine.startTurn session decision live now).report.triggered

/-- A decision tells what it reports. -/
theorem changes_decide :
    (engine.decide session decision live now).1.changes =
      .ofHappenings (engine.decisionHappenings session decision live now) := by
  have hdraft := Draft.changes_foldl_judge engine.course live (decision.situation (some live)) now
    (engine.startTurn session decision live now).draft
    (engine.startTurn session decision live now).report.triggered
  have hend := engine.draft_turnAfter session decision live now
    (engine.startTurn session decision live now).report.triggered
  rw [← draft_startTurn] at hend
  rw [← hend] at hdraft
  rw [decisionHappenings, Changes.ofHappenings_append, Loaded.ofHappenings]
  exact hdraft

variable {engine session decision live now} in
theorem isChangeOf_of_mem_decisionHappenings {happening : Happening}
    (hmem : happening ∈ engine.decisionHappenings session decision live now) :
    happening.IsChangeOf decision.player ∨
      happening.IsChangeOf (engine.startTurn session decision live now).slot.record.player := by
  rcases List.mem_append.mp hmem with hmem | hmem
  · exact .inl (Loaded.isChangeOf_of_mem_happenings hmem)
  · exact .inr (Draft.isChangeOf_of_mem_happeningsAll _ _ _ _ hmem)

variable {engine} in
theorem tellsAt_decide :
    engine.TellsAt now
      (if (engine.startTurn session decision live now).slot.durable then
        engine.decisionHappenings session decision live now else [])
      (engine.decide session decision live now).2 := by
  have hopened : engine.TellsAt now [] (engine.ensureSession session decision.player now) :=
    .of_journal_eq (engine.journal_ensureSession session decision.player now)
  have hload := hopened.trans
    ((engine.ensureSession session decision.player now).tellsAt_load decision.player now)
  have hfold := (engine.startTurn session decision live now).tellsAt_foldl_judge session live
    (decision.situation (some live)) now
    (engine.startTurn session decision live now).report.triggered
  rw [course_startTurn] at hfold
  exact (hload.trans_of_durable hfold).of_eq rfl

end Decision

variable {σ : Type} [RecordStore σ] [LawfulStore σ] {engine : Engine (TracedStore σ)}

theorem player_of_mem_decisionHappenings {decision : Decision}
    (hkeyed : (engine.desk decision.player).Keyed decision.player) {session : String}
    {live : LiveAction} {now : Instant} {happening : Happening}
    (hmem : happening ∈ engine.decisionHappenings session decision live now) :
    happening.player = decision.player := by
  rcases isChangeOf_of_mem_decisionHappenings hmem with hchange | hchange
  · exact hchange.player_eq
  · exact hchange.player_eq.trans (player_startTurn hkeyed session live now)

/-! ### Onboarding -/

/-- An onboarding that works tells where the player starts; another one tells nothing. -/
theorem tellsAt_onboard {σ : Type} [RecordStore σ] (engine : Engine σ) (player : String)
    (experience : Experience) (now : Instant) :
    ((engine.onboard player experience now).1.isOk = false ∧
      engine.TellsAt now [] (engine.onboard player experience now).2) ∨
    ∃ record rows,
      (PlayerRecord.fresh player now).onboard? engine.curriculum experience now =
        some (record, rows) ∧
      (engine.onboard player experience now).1 = .ok rows ∧
      (engine.onboard player experience now).2.slot? player = some ⟨record, true⟩ ∧
      engine.TellsAt now (onboardHappenings player experience record rows)
        (engine.onboard player experience now).2 := by
  have honboards := engine.onboards_onboard player experience now
  generalize engine.onboard player experience now = result at honboards ⊢
  cases honboards with
  | known => exact .inl ⟨rfl, .of_journal_eq rfl⟩
  | refused error => exact .inl ⟨rfl, .of_journal_eq rfl⟩
  | declined => exact .inl ⟨rfl, .of_journal_eq (journal_write _ _ now)⟩
  | @started record rows hcached hfound honboard hwrite =>
      have hwritten : engine.TellsAt now [] ((engine.fetch player).2.write record now).2 :=
        .of_journal_eq (journal_write _ _ now)
      refine .inr ⟨record, rows, honboard, rfl, ?_, ?_⟩
      · simp [slot?, cache]
      · exact (hwritten.trans (tellsAt_emitAll _ _ now)).of_eq rfl

end Engine

end PokerCoach
