import PokerCoach.Proofs.Curriculum.WellFormed
import PokerCoach.Proofs.Engine.Caching

/-!
# Decisions apart from the store

What a decision does to a record and what it reports, as a function of the loaded record alone. The
turns of an engine follow it step by step, whatever the store does; only whether all was written is
left out of the report.
-/

namespace PokerCoach

open Std Time

/-- The report as if every write had worked. -/
def DecisionReport.asPersisted (report : DecisionReport) : DecisionReport :=
  { report with persisted := true }

/-- A record under evaluation and the report on it so far. -/
structure Draft where
  record : PlayerRecord
  report : DecisionReport

namespace Draft

def note (draft : Draft) (evaluation : Evaluation) : Draft :=
  { draft with
    report := { draft.report with evaluations := draft.report.evaluations ++ [evaluation] } }

def practice (draft : Draft) (skill : Skill) (outcome : Outcome) (marginalCredit : Float)
    (now : Instant) : Draft :=
  let (_, transition) :=
    (draft.record.rowFor skill.id now).record outcome skill.evidence marginalCredit now
  { record := draft.record.practice skill outcome marginalCredit now
    report :=
      { draft.report with transitions := draft.report.transitions ++ transition.toList } }

def advance (draft : Draft) (curriculum : Curriculum) (skill : String) (now : Instant) : Draft :=
  match draft.record.earnedGate? curriculum skill with
  | none => draft
  | some gate =>
      let (_, rows) := ((draft.record.unlock gate now).touch now).backfill curriculum now
      { record := draft.record.advance curriculum skill now
        report :=
          { draft.report with
            unlocked := draft.report.unlocked ++ [gate]
            backfilled := draft.report.backfilled ++ rows } }

def judge (course : Course) (live : LiveAction) (spot : Situation) (now : Instant) (draft : Draft)
    (skill : String) : Draft :=
  let evaluation := course.rules.evaluate skill live spot
  let noted := draft.note evaluation
  if evaluation.outcome.isApplicable then
    match course.curriculum.skill? skill with
    | none => noted
    | some definition =>
        (noted.practice definition evaluation.outcome course.settings.marginalCredit now).advance
          course.curriculum skill now
  else noted

theorem record_advance (draft : Draft) (curriculum : Curriculum) (skill : String) (now : Instant) :
    (draft.advance curriculum skill now).record = draft.record.advance curriculum skill now := by
  unfold advance
  split
  · rename_i hearned
    simp [PlayerRecord.advance, hearned]
  · rfl

theorem unlocked_advance (draft : Draft) (curriculum : Curriculum) (skill : String)
    (now : Instant) :
    (draft.advance curriculum skill now).report.unlocked =
      draft.report.unlocked ++ (draft.record.earnedGate? curriculum skill).toList := by
  cases hearned : draft.record.earnedGate? curriculum skill <;> simp [advance, hearned]

theorem player_advance (draft : Draft) (curriculum : Curriculum) (skill : String) (now : Instant) :
    (draft.advance curriculum skill now).report.player = draft.report.player := by
  unfold advance
  split <;> rfl

theorem hand_advance (draft : Draft) (curriculum : Curriculum) (skill : String) (now : Instant) :
    (draft.advance curriculum skill now).report.hand = draft.report.hand := by
  unfold advance
  split <;> rfl

theorem evaluations_advance (draft : Draft) (curriculum : Curriculum) (skill : String)
    (now : Instant) :
    (draft.advance curriculum skill now).report.evaluations = draft.report.evaluations := by
  unfold advance
  split <;> rfl

section Judge

variable (course : Course) (live : LiveAction) (spot : Situation) (now : Instant)

/-- An evaluation is only noted, or it applies to a skill that is taught and is learned from. -/
theorem judge_cases (draft : Draft) (skill : String) :
    let evaluation := course.rules.evaluate skill live spot
    ((evaluation.outcome.isApplicable = true → course.curriculum.skill? skill = none) ∧
      draft.judge course live spot now skill = draft.note evaluation) ∨
    ∃ definition, definition.id = skill ∧ course.curriculum.skill? skill = some definition ∧
      evaluation.outcome.isApplicable = true ∧
      draft.judge course live spot now skill =
        ((draft.note evaluation).practice definition evaluation.outcome
          course.settings.marginalCredit now).advance course.curriculum definition.id now := by
  unfold judge
  dsimp only
  split
  · rename_i happlicable
    cases hskill : course.curriculum.skill? skill with
    | none => exact .inl ⟨fun _ => rfl, rfl⟩
    | some definition =>
        obtain ⟨-, rfl⟩ := Curriculum.skill?_eq_some hskill
        exact .inr ⟨definition, rfl, rfl, happlicable, rfl⟩
  · rename_i hskipped
    exact .inl ⟨fun happlicable => absurd happlicable hskipped, rfl⟩

/-- An evaluation leaves the record as it is, or the record learns from it. -/
theorem record_judge_cases (draft : Draft) (skill : String) :
    let outcome := (course.rules.evaluate skill live spot).outcome
    ((outcome.isApplicable = true → course.curriculum.skill? skill = none) ∧
      (draft.judge course live spot now skill).record = draft.record) ∨
    ∃ definition, definition.id = skill ∧ course.curriculum.skill? skill = some definition ∧
      outcome.isApplicable = true ∧
      (draft.judge course live spot now skill).record =
        draft.record.learn course.curriculum definition outcome course.settings.marginalCredit
          now := by
  rcases draft.judge_cases course live spot now skill with
    ⟨hskip, hjudge⟩ | ⟨definition, hid, hskill, happlicable, hjudge⟩
  · exact .inl ⟨hskip, by rw [hjudge, note]⟩
  · refine .inr ⟨definition, hid, hskill, happlicable, ?_⟩
    rw [hjudge, record_advance]
    rfl

theorem record_judge_extends (draft : Draft) (skill : String) :
    (draft.judge course live spot now skill).record.Extends draft.record := by
  rcases draft.record_judge_cases course live spot now skill with
    ⟨-, hsame⟩ | ⟨definition, -, -, -, hlearn⟩
  · rw [hsame]
  · rw [hlearn]
    exact draft.record.learn_extends course.curriculum now definition _ _

theorem missing_judge {draft : Draft} (hmissing : draft.record.missing course.curriculum = [])
    (skill : String) :
    (draft.judge course live spot now skill).record.missing course.curriculum = [] := by
  rcases draft.record_judge_cases course live spot now skill with
    ⟨-, hsame⟩ | ⟨definition, -, -, -, hlearn⟩
  · rw [hsame, hmissing]
  · rw [hlearn]
    exact PlayerRecord.missing_learn now hmissing definition _ _

theorem player_judge (draft : Draft) (skill : String) :
    (draft.judge course live spot now skill).report.player = draft.report.player := by
  rcases draft.judge_cases course live spot now skill with ⟨-, hjudge⟩ | ⟨_, -, -, -, hjudge⟩
  · rw [hjudge, note]
  · rw [hjudge]
    exact player_advance _ _ _ now

end Judge

end Draft

namespace Turn

section Draft

variable {σ : Type} (turn : Turn σ)

def draft : Draft :=
  { record := turn.slot.record, report := turn.report.asPersisted }

def note (evaluation : Evaluation) : Turn σ :=
  { turn with
    report := { turn.report with evaluations := turn.report.evaluations ++ [evaluation] } }

theorem emitAll_eq (happenings : List Happening) (now : Instant) :
    turn.emitAll happenings now =
      { turn with engine := (turn.emitAll happenings now).engine } := by
  unfold emitAll
  split <;> rfl

@[simp]
theorem draft_emitAll (happenings : List Happening) (now : Instant) :
    (turn.emitAll happenings now).draft = turn.draft := by
  rw [emitAll_eq]
  rfl

@[simp]
theorem slot_emitAll (happenings : List Happening) (now : Instant) :
    (turn.emitAll happenings now).slot = turn.slot := by
  rw [emitAll_eq]

@[simp]
theorem course_emitAll (happenings : List Happening) (now : Instant) :
    (turn.emitAll happenings now).engine.course = turn.engine.course := by
  unfold emitAll
  split
  · exact Engine.course_emitAll _ happenings now
  · rfl

theorem draft_recordOutcome (skill : Skill) (outcome : Outcome) (now : Instant) :
    (turn.recordOutcome skill outcome now).draft =
      turn.draft.practice skill outcome turn.engine.settings.marginalCredit now := by
  unfold recordOutcome
  rw [draft_emitAll]
  rfl

theorem record_recordOutcome (skill : Skill) (outcome : Outcome) (now : Instant) :
    (turn.recordOutcome skill outcome now).slot.record =
      turn.slot.record.practice skill outcome turn.engine.settings.marginalCredit now :=
  congrArg Draft.record (turn.draft_recordOutcome skill outcome now)

theorem durable_recordOutcome (skill : Skill) (outcome : Outcome) (now : Instant) :
    (turn.recordOutcome skill outcome now).slot.durable = turn.slot.durable := by
  unfold recordOutcome
  rw [slot_emitAll]

@[simp]
theorem course_recordOutcome (skill : Skill) (outcome : Outcome) (now : Instant) :
    (turn.recordOutcome skill outcome now).engine.course = turn.engine.course := by
  unfold recordOutcome
  rw [course_emitAll]

theorem openGate_eq_of_none {skill : String}
    (hearned : turn.slot.record.earnedGate? turn.engine.curriculum skill = none) (now : Instant) :
    turn.openGate skill now = turn := by
  simp [openGate, PlayerRecord.checkGate, hearned]

theorem draft_openGate (skill : String) (now : Instant) :
    (turn.openGate skill now).draft = turn.draft.advance turn.engine.curriculum skill now := by
  cases hearned : turn.slot.record.earnedGate? turn.engine.curriculum skill with
  | none =>
      rw [turn.openGate_eq_of_none hearned]
      simp [Draft.advance, draft, hearned]
  | some gate =>
      simp only [openGate, PlayerRecord.checkGate, hearned, draft_emitAll]
      simp [Draft.advance, draft, hearned, PlayerRecord.advance, DecisionReport.asPersisted]

theorem durable_openGate (skill : String) (now : Instant) :
    (turn.openGate skill now).slot.durable = turn.slot.durable := by
  cases hearned : turn.slot.record.earnedGate? turn.engine.curriculum skill with
  | none => rw [turn.openGate_eq_of_none hearned]
  | some gate => simp only [openGate, PlayerRecord.checkGate, hearned, slot_emitAll]

@[simp]
theorem course_openGate (skill : String) (now : Instant) :
    (turn.openGate skill now).engine.course = turn.engine.course := by
  cases hearned : turn.slot.record.earnedGate? turn.engine.curriculum skill with
  | none => rw [turn.openGate_eq_of_none hearned]
  | some gate => simp only [openGate, PlayerRecord.checkGate, hearned, course_emitAll]

variable [RecordStore σ]

@[simp]
theorem slot_save (now : Instant) : (turn.save now).slot = turn.slot := by
  unfold save
  split <;> rfl

@[simp]
theorem draft_save (now : Instant) : (turn.save now).draft = turn.draft := by
  unfold save
  split <;> rfl

@[simp]
theorem course_save (now : Instant) : (turn.save now).engine.course = turn.engine.course := by
  unfold save
  split
  · exact turn.engine.course_persist _ now
  · rfl

/-! ### One evaluation -/

/-- The turn once an evaluation that applies is in the record and the record is written. -/
def learned (skill : Skill) (evaluation : Evaluation) (now : Instant) : Turn σ :=
  (((turn.note evaluation).recordOutcome skill evaluation.outcome now).openGate skill.id now).save
    now

theorem draft_learned (skill : Skill) (evaluation : Evaluation) (now : Instant) :
    (turn.learned skill evaluation now).draft =
      ((turn.draft.note evaluation).practice skill evaluation.outcome
        turn.engine.course.settings.marginalCredit now).advance turn.engine.course.curriculum
          skill.id now := by
  have hcourse :=
    congrArg Course.curriculum ((turn.note evaluation).course_recordOutcome skill
      evaluation.outcome now)
  rw [learned, draft_save, draft_openGate, draft_recordOutcome]
  exact congrArg (Draft.advance _ · skill.id now) hcourse

@[simp]
theorem course_learned (skill : Skill) (evaluation : Evaluation) (now : Instant) :
    (turn.learned skill evaluation now).engine.course = turn.engine.course := by
  rw [learned, course_save, course_openGate, course_recordOutcome]
  rfl

theorem slot_learned (skill : Skill) (evaluation : Evaluation) (now : Instant) :
    (turn.learned skill evaluation now).slot =
      { turn.slot with
        record := turn.slot.record.learn turn.engine.curriculum skill evaluation.outcome
          turn.engine.settings.marginalCredit now } := by
  have hrecord : (turn.learned skill evaluation now).slot.record = _ :=
    congrArg Draft.record (turn.draft_learned skill evaluation now)
  have hdurable : (turn.learned skill evaluation now).slot.durable = turn.slot.durable := by
    rw [learned, slot_save, durable_openGate, durable_recordOutcome]
    rfl
  rw [Draft.record_advance] at hrecord
  calc (turn.learned skill evaluation now).slot
      = ⟨(turn.learned skill evaluation now).slot.record,
          (turn.learned skill evaluation now).slot.durable⟩ := rfl
    _ = _ := by
        rw [hrecord, hdurable]
        rfl

variable {live : LiveAction} {spot : Situation} (session : String) (now : Instant)

theorem judge_eq_note {skill : String}
    (hskip : (turn.engine.rules.evaluate skill live spot).outcome.isApplicable = true →
      turn.engine.curriculum.skill? skill = none) :
    turn.judge session live spot now skill =
      turn.note (turn.engine.rules.evaluate skill live spot) := by
  unfold judge
  dsimp only
  split
  · rename_i happlicable
    rw [hskip happlicable]
    rfl
  · rfl

theorem judge_eq_learned {skill : Skill}
    (happlicable : (turn.engine.rules.evaluate skill.id live spot).outcome.isApplicable = true)
    (hskill : turn.engine.curriculum.skill? skill.id = some skill) :
    turn.judge session live spot now skill.id =
      let evaluation := turn.engine.rules.evaluate skill.id live spot
      let learned := turn.learned skill evaluation now
      { learned with
        engine := learned.engine.remember session learned.report.hand evaluation } := by
  unfold judge
  dsimp only
  rw [if_pos happlicable, hskill]
  rfl

/-- An evaluation is only noted, or it applies to a skill that is taught and is learned from. -/
theorem judge_cases (live : LiveAction) (spot : Situation) (skill : String) :
    let evaluation := turn.engine.rules.evaluate skill live spot
    ((evaluation.outcome.isApplicable = true → turn.engine.curriculum.skill? skill = none) ∧
      turn.judge session live spot now skill = turn.note evaluation) ∨
    ∃ definition, definition.id = skill ∧ turn.engine.curriculum.skill? skill = some definition ∧
      evaluation.outcome.isApplicable = true ∧
      turn.judge session live spot now skill =
        let learned := turn.learned definition evaluation now
        { learned with
          engine := learned.engine.remember session learned.report.hand evaluation } := by
  by_cases happlicable : (turn.engine.rules.evaluate skill live spot).outcome.isApplicable = true
  · cases hskill : turn.engine.curriculum.skill? skill with
    | none => exact .inl ⟨fun _ => rfl, turn.judge_eq_note session now fun _ => hskill⟩
    | some definition =>
        obtain ⟨-, rfl⟩ := Curriculum.skill?_eq_some hskill
        exact .inr ⟨definition, rfl, rfl, happlicable,
          turn.judge_eq_learned session now happlicable hskill⟩
  · exact .inl ⟨fun h => absurd h happlicable,
      turn.judge_eq_note session now fun h => absurd h happlicable⟩

theorem course_judge (skill : String) :
    (turn.judge session live spot now skill).engine.course = turn.engine.course := by
  rcases turn.judge_cases session now live spot skill with ⟨-, hjudge⟩ | ⟨_, -, -, -, hjudge⟩
  · rw [hjudge, note]
  · rw [hjudge]
    simp

theorem draft_judge (skill : String) :
    (turn.judge session live spot now skill).draft =
      turn.draft.judge turn.engine.course live spot now skill := by
  unfold Draft.judge
  rcases turn.judge_cases session now live spot skill with
    ⟨hskip, hjudge⟩ | ⟨definition, rfl, hskill, happlicable, hjudge⟩
  · rw [hjudge]
    dsimp only [Engine.course]
    split
    · rename_i happlicable
      rw [hskip happlicable]
      rfl
    · rfl
  · rw [hjudge]
    simp only [Engine.course, happlicable, hskill, if_true]
    exact turn.draft_learned definition _ now

theorem course_foldl_judge (skills : List String) :
    (skills.foldl (judge session live spot now) turn).engine.course = turn.engine.course := by
  induction skills generalizing turn with
  | nil => rfl
  | cons skill rest ih => rw [List.foldl_cons, ih, course_judge]

theorem draft_foldl_judge (skills : List String) :
    (skills.foldl (judge session live spot now) turn).draft =
      skills.foldl (Draft.judge turn.engine.course live spot now) turn.draft := by
  induction skills generalizing turn with
  | nil => rfl
  | cons skill rest ih =>
      rw [List.foldl_cons, List.foldl_cons, ih, course_judge, draft_judge]

end Draft

/-! ### What evaluations keep -/

section Keeps

variable {σ : Type} [RecordStore σ] (turn : Turn σ) (session : String) (live : LiveAction)
  (spot : Situation) (now : Instant)

theorem durable_judge (skill : String) :
    (turn.judge session live spot now skill).slot.durable = turn.slot.durable := by
  rcases turn.judge_cases session now live spot skill with
    ⟨-, hjudge⟩ | ⟨definition, -, -, -, hjudge⟩
  · rw [hjudge, note]
  · rw [hjudge]
    dsimp only
    rw [slot_learned]

theorem record_judge_extends (skill : String) :
    (turn.judge session live spot now skill).slot.record.Extends turn.slot.record := by
  have hrecord : (turn.judge session live spot now skill).slot.record =
      (turn.draft.judge turn.engine.course live spot now skill).record :=
    congrArg Draft.record (turn.draft_judge session now skill)
  rw [hrecord]
  exact turn.draft.record_judge_extends turn.engine.course live spot now skill

theorem record_foldl_judge_extends (skills : List String) :
    (skills.foldl (judge session live spot now) turn).slot.record.Extends turn.slot.record := by
  induction skills generalizing turn with
  | nil => exact .refl _
  | cons skill rest ih => exact (ih _).trans (turn.record_judge_extends session live spot now skill)

theorem durable_foldl_judge (skills : List String) :
    (skills.foldl (judge session live spot now) turn).slot.durable = turn.slot.durable := by
  induction skills generalizing turn with
  | nil => rfl
  | cons skill rest ih => rw [List.foldl_cons, ih, durable_judge]

end Keeps

end Turn

namespace Draft

/-- The draft of a decision once the record is loaded. -/
def opening (course : Course) (decision : Decision) (live : LiveAction) (loaded : Loaded) :
    Draft where
  record := loaded.slot.record
  report :=
    { player := decision.player
      hand := decision.hand
      triggered :=
        course.rules.classify (decision.situation (some live))
          ((course.curriculum.skills.filter fun skill =>
            loaded.slot.record.isUnlocked skill.gate && skill.appliesOn decision.street).map
              Skill.id)
      unlocked := loaded.unlocked
      backfilled := loaded.backfilled }

def finish (course : Course) (decision : Decision) (live : LiveAction) (now : Instant)
    (draft : Draft) : Draft :=
  draft.report.triggered.foldl (judge course live (decision.situation (some live)) now) draft

/-- Only skills of the curriculum come up. -/
theorem isSome_skill?_of_mem_triggered {course : Course} {decision : Decision} {live : LiveAction}
    {loaded : Loaded} {skill : String}
    (hmem : skill ∈ (opening course decision live loaded).report.triggered) :
    (course.curriculum.skill? skill).isSome := by
  obtain ⟨candidate, hcandidate, rfl⟩ := List.mem_map.mp (List.mem_filter.mp hmem).1
  exact List.find?_isSome.mpr
    ⟨candidate, (List.mem_filter.mp hcandidate).1, beq_self_eq_true candidate.id⟩

end Draft

namespace Engine

variable {σ : Type} [RecordStore σ] (engine : Engine σ) (session : String) (decision : Decision)
  (live : LiveAction) (now : Instant)

/-- What a decision starts from: the record that is loaded for it. -/
def loadFor : Loaded × Engine σ :=
  (engine.ensureSession session decision.player now).load decision.player now

def startTurn : Turn σ :=
  (engine.ensureSession session decision.player now).beginTurn decision
    (decision.situation (some live)) now

/-- A decision after some of its evaluations. -/
def turnAfter (skills : List String) : Turn σ :=
  skills.foldl (Turn.judge session live (decision.situation (some live)) now)
    (engine.startTurn session decision live now)

def endTurn : Turn σ :=
  engine.turnAfter session decision live now
    (engine.startTurn session decision live now).report.triggered

theorem decide_eq :
    engine.decide session decision live now =
      ((engine.endTurn session decision live now).report,
        (engine.endTurn session decision live now).engine.cache decision.player
          (engine.endTurn session decision live now).slot) :=
  rfl

@[simp]
theorem course_loadFor : (engine.loadFor session decision now).2.course = engine.course := by
  rw [loadFor, course_load, course_ensureSession]

theorem course_startTurn :
    (engine.startTurn session decision live now).engine.course = engine.course :=
  engine.course_loadFor session decision now

theorem draft_startTurn :
    (engine.startTurn session decision live now).draft =
      .opening engine.course decision live (engine.loadFor session decision now).1 := by
  rw [← engine.course_loadFor session decision now]
  rfl

theorem draft_turnAfter (skills : List String) :
    (engine.turnAfter session decision live now skills).draft =
      skills.foldl (Draft.judge engine.course live (decision.situation (some live)) now)
        (.opening engine.course decision live (engine.loadFor session decision now).1) := by
  rw [turnAfter, Turn.draft_foldl_judge, course_startTurn, draft_startTurn]

theorem course_turnAfter (skills : List String) :
    (engine.turnAfter session decision live now skills).engine.course = engine.course := by
  rw [turnAfter, Turn.course_foldl_judge, course_startTurn]

theorem draft_endTurn :
    (engine.endTurn session decision live now).draft =
      (Draft.opening engine.course decision live (engine.loadFor session decision now).1).finish
        engine.course decision live now := by
  rw [endTurn, draft_turnAfter, Draft.finish, ← draft_startTurn]
  rfl

theorem player_decide : (engine.decide session decision live now).1.player = decision.player := by
  have hfold (skills : List String) (draft : Draft) :
      (skills.foldl (Draft.judge engine.course live (decision.situation (some live)) now)
        draft).report.player = draft.report.player := by
    induction skills generalizing draft with
    | nil => rfl
    | cons skill rest ih => rw [List.foldl_cons, ih, Draft.player_judge]
  exact (congrArg (fun draft => draft.report.player) (engine.draft_endTurn session decision live
    now)).trans (hfold _ _)

theorem course_decide : (engine.decide session decision live now).2.course = engine.course :=
  engine.course_turnAfter session decision live now _

end Engine

end PokerCoach
