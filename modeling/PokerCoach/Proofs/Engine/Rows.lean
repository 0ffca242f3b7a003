import PokerCoach.Proofs.Rule.Decisive
import PokerCoach.Proofs.Progress.Folding
import PokerCoach.Proofs.Progress.Migration
import PokerCoach.Proofs.Progress.NextGate
import PokerCoach.Proofs.Engine.Complete

/-!
# What a decision does to the rows

The skills that come up are chosen before any of them is evaluated, each once, and all of them have
rows by then. So each row takes in at most one outcome, and a gate that opens on the way adds rows
that nothing is evaluated for.
-/

namespace PokerCoach

open Std Time

/-! ### One lesson -/

namespace PlayerRecord

variable (record : PlayerRecord) {curriculum : Curriculum} (now : Instant)

theorem row?_advance_of_some {id : String} {row : SkillRow} (hrow : record.row? id = some row)
    (skill : String) : (record.advance curriculum skill now).row? id = some row := by
  unfold advance
  split
  · exact hrow
  · have hopened (gate : UInt32) : ((record.unlock gate now).touch now).row? id = some row := hrow
    rw [row?_backfill, row?_addRows, hopened, Option.some_or]

theorem row?_learn_of_some {id : String} {row : SkillRow} (hrow : record.row? id = some row)
    (skill : Skill) (outcome : Outcome) (marginalCredit : Float) :
    (record.learn curriculum skill outcome marginalCredit now).row? id =
      some (if skill.id = id then (row.record outcome skill.evidence marginalCredit now).1
        else row) := by
  apply row?_advance_of_some
  by_cases heq : skill.id = id
  · have hfor : record.rowFor skill.id now = row := by simp [rowFor, heq, hrow]
    rw [if_pos heq, practice, hfor, row?_touch, row?_setRow, if_pos heq]
  · rw [if_neg heq, row?_practice_of_ne heq, hrow]

/-- The rows that a gate adds to a complete record are those of its own skills. -/
theorem gate_of_mem_missing_unlock (hmissing : record.missing curriculum = []) {gate : UInt32}
    {added : Backfill}
    (hmem : added ∈ ((record.unlock gate now).touch now).missing curriculum) :
    added.gate = gate := by
  obtain ⟨owner, howner, hopen, hgate, hskill, hnone, -⟩ := (mem_missing_iff _ curriculum).mp hmem
  rw [isUnlocked_touch, isUnlocked_unlock, Bool.or_eq_true, decide_eq_true_iff] at hopen
  rcases hopen with hopened | hbefore
  · rw [hgate, hopened]
  · have hrow := (missing_eq_nil_iff record curriculum).mp hmissing owner howner hbefore _ hskill
    rw [show record.row? added.skill = none from hnone] at hrow
    cases hrow

end PlayerRecord

/-! ### One evaluation -/

/-- The row of a skill once the outcome of a live action is in. -/
def Course.practiced (course : Course) (live : LiveAction) (spot : Situation) (now : Instant)
    (skill : String) (row : SkillRow) : SkillRow :=
  match course.curriculum.skill? skill with
  | none => row
  | some definition =>
      (row.record (course.rules.evaluate skill live spot).outcome definition.evidence
        course.settings.marginalCredit now).1

namespace Course

variable {course : Course} {live : LiveAction} {spot : Situation} {now : Instant}

theorem practiced_of_skill? {skill : Skill} (hskill : course.curriculum.skill? skill.id = some skill)
    (row : SkillRow) :
    course.practiced live spot now skill.id row =
      (row.record (course.rules.evaluate skill.id live spot).outcome skill.evidence
        course.settings.marginalCredit now).1 := by
  simp only [practiced, hskill]

/-- The row of a skill that is not taught, or to which the action does not apply, stays. -/
theorem practiced_eq_self {skill : String}
    (hskip : (course.rules.evaluate skill live spot).outcome.isApplicable = true →
      course.curriculum.skill? skill = none) (row : SkillRow) :
    course.practiced live spot now skill row = row := by
  unfold practiced
  cases hskill : course.curriculum.skill? skill with
  | none => rfl
  | some definition =>
      have hskipped : (course.rules.evaluate skill live spot).outcome.isApplicable = false := by
        by_contra happlies
        cases hskill.symm.trans (hskip (by simpa using happlies))
      exact congrArg Prod.fst (row.record_of_not_applicable _ _ now hskipped)

end Course

namespace Draft

/-- What evaluations add to a draft: the gates that they open and the rows of the skills taught
there. -/
structure Adds (now : Instant) (before after : Draft) (opened : List UInt32)
    (rows : List Backfill) : Prop where
  grows : after.record.Extends before.record
  unlocked : after.report.unlocked = before.report.unlocked ++ opened
  backfilled : after.report.backfilled = before.report.backfilled ++ rows
  gates : ∀ gate, gate ∈ opened ↔
    before.record.isUnlocked gate = false ∧ after.record.isUnlocked gate = true
  added : ∀ row ∈ rows, row.gate ∈ opened ∧ before.record.row? row.skill = none ∧
    after.record.row? row.skill = some (.fresh row.skill row.level now)
  new : ∀ id row, before.record.row? id = none → after.record.row? id = some row →
    ∃ added ∈ rows, added.skill = id

namespace Adds

variable {now : Instant} {before middle after : Draft} {opened later : List UInt32}
  {rows more : List Backfill}

/-- Nothing is added where no gate opens and no row is created. -/
theorem nothing (hgrows : after.record.Extends before.record)
    (hunlocked : after.report.unlocked = before.report.unlocked)
    (hbackfilled : after.report.backfilled = before.report.backfilled)
    (hgates : ∀ gate, after.record.isUnlocked gate = before.record.isUnlocked gate)
    (hrows : ∀ id, before.record.row? id = none → after.record.row? id = none) :
    Adds now before after [] [] where
  grows := hgrows
  unlocked := by rw [hunlocked, List.append_nil]
  backfilled := by rw [hbackfilled, List.append_nil]
  gates gate := by simp [hgates]
  added _ hmem := absurd hmem List.not_mem_nil
  new id row hnone hsome := by cases (hrows id hnone).symm.trans hsome

/-- Two parts of a decision, of which the second leaves the rows alone that the first has added. -/
theorem trans (hfirst : Adds now before middle opened rows)
    (hsecond : Adds now middle after later more)
    (hkept : ∀ row ∈ rows, after.record.row? row.skill = middle.record.row? row.skill) :
    Adds now before after (opened ++ later) (rows ++ more) where
  grows := hsecond.grows.trans hfirst.grows
  unlocked := by rw [hsecond.unlocked, hfirst.unlocked, List.append_assoc]
  backfilled := by rw [hsecond.backfilled, hfirst.backfilled, List.append_assoc]
  gates gate := by
    rw [List.mem_append, hfirst.gates, hsecond.gates]
    constructor
    · rintro (⟨hlocked, hopen⟩ | ⟨hlocked, hopen⟩)
      · exact ⟨hlocked, hsecond.grows.isUnlocked hopen⟩
      · exact ⟨hfirst.grows.isLocked hlocked, hopen⟩
    · rintro ⟨hlocked, hopen⟩
      -- The gate opens in the first part or in the second.
      cases hmiddle : middle.record.isUnlocked gate with
      | true => exact .inl ⟨hlocked, rfl⟩
      | false => exact .inr ⟨rfl, hopen⟩
  added row hmem := by
    rcases List.mem_append.mp hmem with hearly | hlate
    · obtain ⟨hgate, hnone, hsome⟩ := hfirst.added row hearly
      exact ⟨List.mem_append_left later hgate, hnone, (hkept row hearly).trans hsome⟩
    · obtain ⟨hgate, hnone, hsome⟩ := hsecond.added row hlate
      refine ⟨List.mem_append_right opened hgate, ?_, hsome⟩
      by_contra hthere
      obtain ⟨old, hold⟩ := Option.ne_none_iff_exists'.mp hthere
      obtain ⟨grown, hgrown, -⟩ := hfirst.grows.rows _ old hold
      cases hnone.symm.trans hgrown
  new id row hnone hsome := by
    cases hmiddle : middle.record.row? id with
    | some early =>
        obtain ⟨added, hmem, hskill⟩ := hfirst.new id early hnone hmiddle
        exact ⟨added, List.mem_append_left more hmem, hskill⟩
    | none =>
        obtain ⟨added, hmem, hskill⟩ := hsecond.new id row hmiddle hsome
        exact ⟨added, List.mem_append_right rows hmem, hskill⟩

end Adds

variable (course : Course) (live : LiveAction) (spot : Situation) (now : Instant)

theorem row?_judge (draft : Draft) (skill : String) {id : String} {row : SkillRow}
    (hrow : draft.record.row? id = some row) :
    (draft.judge course live spot now skill).record.row? id =
      some (if skill = id then course.practiced live spot now id row else row) := by
  rcases draft.record_judge_cases course live spot now skill with
    ⟨hskip, hsame⟩ | ⟨definition, rfl, hskill, -, hlearn⟩
  · have hstays : skill = id → course.practiced live spot now id row = row := by
      rintro rfl
      exact Course.practiced_eq_self hskip row
    rw [hsame, hrow, ite_eq_right_iff.mpr hstays]
  · rw [hlearn, draft.record.row?_learn_of_some now hrow]
    by_cases heq : definition.id = id
    · subst heq
      rw [if_pos rfl, if_pos rfl, Course.practiced_of_skill? hskill]
    · rw [if_neg heq, if_neg heq]

theorem adds_note (draft : Draft) (evaluation : Evaluation) :
    Adds now draft (draft.note evaluation) [] [] :=
  .nothing (.refl _) rfl rfl (fun _ => rfl) fun _ hnone => hnone

theorem adds_practice {draft : Draft} {skill : Skill} {row : SkillRow}
    (hrow : draft.record.row? skill.id = some row) (outcome : Outcome) (marginalCredit : Float) :
    Adds now draft (draft.practice skill outcome marginalCredit now) [] [] := by
  refine .nothing (draft.record.practice_extends now skill outcome marginalCredit) rfl rfl
    (fun _ => rfl) fun id hnone => ?_
  have hne : skill.id ≠ id := by
    rintro rfl
    cases hrow.symm.trans hnone
  exact (PlayerRecord.row?_practice_of_ne hne outcome marginalCredit now).trans hnone

theorem adds_advance {curriculum : Curriculum} (hwell : curriculum.WellFormed) {draft : Draft}
    (hmissing : draft.record.missing curriculum = []) (skill : String) :
    ∃ opened rows, Adds now draft (draft.advance curriculum skill now) opened rows := by
  cases hearned : draft.record.earnedGate? curriculum skill with
  | none =>
      have hsame : draft.advance curriculum skill now = draft := by simp [advance, hearned]
      refine ⟨[], [], ?_⟩
      rw [hsame]
      exact .nothing (.refl _) rfl rfl (fun _ => rfl) fun _ hnone => hnone
  | some gate =>
      have hrecord : (draft.advance curriculum skill now).record =
          (((draft.record.unlock gate now).touch now).backfill curriculum now).1 := by
        rw [record_advance, PlayerRecord.advance, hearned]
      have hlocked : draft.record.isUnlocked gate = false := by
        obtain ⟨_, _, -, -, rfl, hlocked, -⟩ := PlayerRecord.earnedGate?_eq_some hearned
        exact hlocked
      generalize hopened : (draft.record.unlock gate now).touch now = opened at hrecord
      refine ⟨[gate], opened.missing curriculum, ?_, ?_, ?_, fun number => ?_, fun row hmem => ?_,
        fun id row hnone hsome => ?_⟩
      · rw [record_advance]
        exact draft.record.advance_extends curriculum now skill
      · rw [unlocked_advance, hearned, Option.toList_some]
      · simp [advance, hearned, PlayerRecord.snd_backfill, hopened]
      · rw [hrecord, PlayerRecord.isUnlocked_backfill, ← hopened, PlayerRecord.isUnlocked_touch,
          PlayerRecord.isUnlocked_unlock, List.mem_singleton]
        by_cases heq : gate = number
        · subst heq
          simp [hlocked]
        · simp [heq, Ne.symm heq]
      · have hnone : opened.row? row.skill = none := by
          obtain ⟨-, -, -, -, -, hnone, -⟩ := (opened.mem_missing_iff curriculum).mp hmem
          exact hnone
        have hbefore : draft.record.row? row.skill = none := by
          rw [← hopened] at hnone
          exact hnone
        have hadded := opened.row?_backfill_of_mem_missing now hwell hmem
        rw [← hopened] at hmem
        rw [hrecord, draft.record.gate_of_mem_missing_unlock now hmissing hmem]
        exact ⟨List.mem_singleton_self gate, hbefore, hadded⟩
      · have hbefore : opened.row? id = none := by
          rw [← hopened]
          exact hnone
        rw [hrecord] at hsome
        obtain ⟨added, hmem, hskill, -⟩ :=
          opened.exists_missing_of_row?_backfill now hbefore hsome
        exact ⟨added, hmem, hskill⟩

theorem adds_judge (hwell : course.curriculum.WellFormed) {draft : Draft}
    (hmissing : draft.record.missing course.curriculum = []) {skill : String} {row : SkillRow}
    (hrow : draft.record.row? skill = some row) :
    ∃ opened rows, Adds now draft (draft.judge course live spot now skill) opened rows := by
  rcases draft.judge_cases course live spot now skill with
    ⟨-, hjudge⟩ | ⟨definition, rfl, -, -, hjudge⟩
  · rw [hjudge]
    exact ⟨[], [], draft.adds_note now _⟩
  · rw [hjudge]
    generalize course.rules.evaluate definition.id live spot = evaluation
    generalize hpracticed : (draft.note evaluation).practice definition evaluation.outcome
      course.settings.marginalCredit now = practiced
    have hnoted : (draft.note evaluation).record.row? definition.id = some row := hrow
    have hpractice : Adds now (draft.note evaluation) practiced [] [] := by
      rw [← hpracticed]
      exact adds_practice now hnoted evaluation.outcome course.settings.marginalCredit
    have hstill : practiced.record.missing course.curriculum = [] := by
      rw [← hpracticed]
      exact PlayerRecord.missing_practice now hmissing definition _ _
    obtain ⟨opened, rows, hadvance⟩ := adds_advance now hwell hstill definition.id
    exact ⟨_, _, ((draft.adds_note now evaluation).trans hpractice (by simp)).trans hadvance
      (by simp)⟩

theorem evaluations_judge (draft : Draft) (skill : String) :
    (draft.judge course live spot now skill).report.evaluations =
      draft.report.evaluations ++ [course.rules.evaluate skill live spot] := by
  rcases draft.judge_cases course live spot now skill with
    ⟨-, hjudge⟩ | ⟨definition, rfl, -, -, hjudge⟩
  · rw [hjudge, note]
  · rw [hjudge, evaluations_advance]
    rfl

theorem triggered_judge (draft : Draft) (skill : String) :
    (draft.judge course live spot now skill).report.triggered = draft.report.triggered := by
  rcases draft.judge_cases course live spot now skill with
    ⟨-, hjudge⟩ | ⟨definition, -, -, -, hjudge⟩
  · rw [hjudge, note]
  · rw [hjudge]
    unfold advance
    split <;> rfl

/-! ### All evaluations -/

/-- Skills that are evaluated once each take in one outcome each, and all other rows stay. -/
theorem row?_foldl_judge {skills : List String} (hnodup : skills.Nodup) {draft : Draft}
    {id : String} {row : SkillRow} (hrow : draft.record.row? id = some row) :
    (skills.foldl (judge course live spot now) draft).record.row? id =
      some (if id ∈ skills then course.practiced live spot now id row else row) := by
  induction skills generalizing draft row with
  | nil => exact hrow
  | cons skill rest ih =>
      obtain ⟨hlater, hrest⟩ := List.nodup_cons.mp hnodup
      rw [List.foldl_cons, ih hrest (draft.row?_judge course live spot now skill hrow)]
      by_cases heq : skill = id
      · subst heq
        rw [if_pos rfl, if_neg hlater, if_pos List.mem_cons_self]
      · simp only [heq, Ne.symm heq, if_false, List.mem_cons, false_or]

theorem adds_foldl_judge (hwell : course.curriculum.WellFormed) {draft : Draft}
    (hmissing : draft.record.missing course.curriculum = []) {skills : List String}
    (hrows : ∀ skill ∈ skills, ∃ row, draft.record.row? skill = some row) :
    (skills.foldl (judge course live spot now) draft).record.missing course.curriculum = [] ∧
      ∃ opened rows, Adds now draft (skills.foldl (judge course live spot now) draft) opened rows := by
  -- From the end: a skill with a row from the start is none of those whose rows were added.
  induction skills using List.reverseRecOn with
  | nil => exact ⟨hmissing, [], [], .nothing (.refl _) rfl rfl (fun _ => rfl) fun _ hnone => hnone⟩
  | append_singleton before skill ih =>
      obtain ⟨hmiddle, opened, rows, hbefore⟩ :=
        ih fun other hmem => hrows other (List.mem_append_left [skill] hmem)
      obtain ⟨row, hrow⟩ := hrows skill (List.mem_append_right before List.mem_cons_self)
      obtain ⟨grown, hgrown, -⟩ := hbefore.grows.rows skill row hrow
      obtain ⟨later, more, hlast⟩ := adds_judge course live spot now hwell hmiddle hgrown
      rw [List.foldl_append, List.foldl_cons, List.foldl_nil]
      refine ⟨missing_judge course live spot now hmiddle skill, _, _,
        hbefore.trans hlast fun added hmem => ?_⟩
      obtain ⟨-, hnone, hsome⟩ := hbefore.added added hmem
      have hne : skill ≠ added.skill := by
        rintro rfl
        cases hrow.symm.trans hnone
      rw [row?_judge _ _ _ _ _ _ hsome, if_neg hne, hsome]

theorem evaluations_foldl_judge (skills : List String) (draft : Draft) :
    (skills.foldl (judge course live spot now) draft).report.evaluations =
      draft.report.evaluations ++ skills.map (course.rules.evaluate · live spot) := by
  induction skills generalizing draft with
  | nil => exact (List.append_nil _).symm
  | cons skill rest ih =>
      rw [List.foldl_cons, ih, evaluations_judge, List.map_cons, List.append_assoc,
        List.singleton_append]

theorem triggered_foldl_judge (skills : List String) (draft : Draft) :
    (skills.foldl (judge course live spot now) draft).report.triggered =
      draft.report.triggered := by
  induction skills generalizing draft with
  | nil => rfl
  | cons skill rest ih => rw [List.foldl_cons, ih, triggered_judge]

/-! ### The skills that come up -/

section Opening

variable (decision : Decision) (loaded : Loaded)

theorem triggered_opening :
    (opening course decision live loaded).report.triggered =
      (course.curriculum.skills.filter fun skill =>
        loaded.slot.record.isUnlocked skill.gate && skill.appliesOn decision.street &&
          course.rules.triggers (decision.situation (some live)) skill.id).map Skill.id := by
  unfold opening RuleBook.classify
  dsimp only
  rw [List.filter_map, List.filter_filter]
  refine congrArg (List.map Skill.id) (List.filter_congr fun skill _ => ?_)
  rw [Function.comp_apply, Bool.and_comm]

theorem triggered_finish :
    ((opening course decision live loaded).finish course decision live now).report.triggered =
      (opening course decision live loaded).report.triggered :=
  triggered_foldl_judge course live _ now _ _

theorem evaluations_finish :
    ((opening course decision live loaded).finish course decision live now).report.evaluations =
      (opening course decision live loaded).report.triggered.map
        (course.rules.evaluate · live (decision.situation (some live))) :=
  evaluations_foldl_judge course live _ now _ _

variable {course live decision loaded} (hwell : course.curriculum.WellFormed)

theorem comesUp_of_mem_opening {id : String}
    (hmem : id ∈ (opening course decision live loaded).report.triggered) :
    loaded.slot.record.ComesUp course.curriculum id ∧
      course.rules.triggers (decision.situation (some live)) id = true := by
  rw [triggered_opening, List.mem_map] at hmem
  obtain ⟨skill, hmem, rfl⟩ := hmem
  obtain ⟨hskill, hcomes⟩ := List.mem_filter.mp hmem
  simp only [Bool.and_eq_true] at hcomes
  exact ⟨⟨skill, hskill, rfl, hcomes.1.1⟩, hcomes.2⟩

include hwell

theorem nodup_triggered : (opening course decision live loaded).report.triggered.Nodup := by
  rw [triggered_opening]
  exact hwell.nodup.sublist (List.filter_sublist.map Skill.id)

variable (live decision) in
theorem row?_finish {id : String} {row : SkillRow}
    (hrow : loaded.slot.record.row? id = some row) :
    ((opening course decision live loaded).finish course decision live now).record.row? id =
      some (if id ∈ (opening course decision live loaded).report.triggered then
        course.practiced live (decision.situation (some live)) now id row else row) :=
  row?_foldl_judge course live _ now (nodup_triggered hwell) hrow

variable (hmissing : loaded.slot.record.missing course.curriculum = [])
include hmissing

theorem exists_row_of_mem_opening {id : String}
    (hmem : id ∈ (opening course decision live loaded).report.triggered) :
    ∃ row, loaded.slot.record.row? id = some row :=
  PlayerRecord.exists_row_of_comesUp hwell hmissing (comesUp_of_mem_opening hmem).1

theorem adds_finish :
    ∃ opened rows, Adds now (opening course decision live loaded)
      ((opening course decision live loaded).finish course decision live now) opened rows :=
  (adds_foldl_judge course live _ now hwell hmissing fun _ hmem =>
    exists_row_of_mem_opening hwell hmissing hmem).2

theorem opportunities_finish_of_standard (hrules : course.rules = .standard) {id : String}
    (hmem : id ∈ (opening course decision live loaded).report.triggered) :
    (course.rules.evaluate id live (decision.situation (some live))).outcome.isApplicable = true ∧
      ∃ row grown, loaded.slot.record.row? id = some row ∧
        ((opening course decision live loaded).finish course decision live now).record.row? id =
          some grown ∧
        grown.opportunities.toNat = min (row.opportunities.toNat + 1) (2 ^ 32 - 1) := by
  obtain ⟨⟨skill, hskill, rfl, -⟩, htriggers⟩ := comesUp_of_mem_opening hmem
  have happlies := RuleBook.isApplicable_evaluate htriggers
    (fun rule hfind => RuleBook.isDecisive_of_find?_standard (hrules ▸ hfind)) live
  obtain ⟨row, hrow⟩ := exists_row_of_mem_opening hwell hmissing hmem
  have hgrown := row?_finish live now decision hwell hrow
  rw [if_pos hmem, Course.practiced_of_skill? (hwell.skill?_eq hskill)] at hgrown
  refine ⟨happlies, row, _, hrow, hgrown, ?_⟩
  rw [SkillRow.opportunities_record, if_pos happlies, toNat_countUp]
  rfl

end Opening

end Draft

/-! ### Whole decisions -/

namespace Engine

variable {σ : Type} [RecordStore σ] [LawfulStore σ]

/-- In any engine that a run reaches, whatever was stored and taught before, a decision evaluates
the skills whose gate is open in the loaded record, that can come up on the street and whose rule
triggers, each once and in teaching order. The row of each takes in the one outcome; all other rows
stay, and so does one whose outcome does not apply. The gates that open on the way add the rows of
their skills, which are new, and none of these skills is evaluated. With the standard rules every
outcome applies, so that each of the skills gains an opportunity. -/
theorem decision_practices_each_once (store : σ)
    (hstore : ∀ player record, held store player = some record → record.player = player)
    (course : Course) (haccepted : course.curriculum.Accepted) (journal : Option Journal)
    (operations : List Operation)
    (htaught : ∀ operation ∈ operations, ∀ other, operation.restarts? = some other →
      other.curriculum.Accepted)
    (session : String) (decision : Decision) (live : LiveAction) (now : Instant) :
    let engine := reached store course journal operations
    let loaded := (engine.loadFor session decision now).1
    let before := loaded.slot.record
    let spot := decision.situation (some live)
    let report := (engine.decide session decision live now).1
    ∃ after opened rows,
      ((engine.decide session decision live now).2.slot? decision.player).map Slot.record =
        some after ∧
      report.triggered =
        (engine.curriculum.skills.filter fun skill =>
          before.isUnlocked skill.gate && skill.appliesOn decision.street &&
            engine.rules.triggers spot skill.id).map Skill.id ∧
      report.triggered.Nodup ∧
      report.evaluations = report.triggered.map (engine.rules.evaluate · live spot) ∧
      (∀ skill ∈ engine.curriculum.skills, skill.id ∈ report.triggered →
        ∃ row, before.skills[skill.id]? = some row ∧
          after.skills[skill.id]? =
            some (row.record (engine.rules.evaluate skill.id live spot).outcome skill.evidence
              engine.settings.marginalCredit now).1) ∧
      (∀ (id : String) (row : SkillRow), before.skills[id]? = some row →
        id ∉ report.triggered ∨
          (engine.rules.evaluate id live spot).outcome.isApplicable = false →
        after.skills[id]? = some row) ∧
      report.unlocked = loaded.unlocked ++ opened ∧
      report.backfilled = loaded.backfilled ++ rows ∧
      (∀ gate, gate ∈ opened ↔ before.isUnlocked gate = false ∧ after.isUnlocked gate = true) ∧
      (∀ added ∈ rows, added.gate ∈ opened ∧ before.skills[added.skill]? = none ∧
        after.skills[added.skill]? = some (.fresh added.skill added.level now)) ∧
      (∀ (id : String) (row : SkillRow), before.skills[id]? = none → after.skills[id]? = some row →
        ∃ added ∈ rows, added.skill = id) ∧
      (∀ evaluation ∈ report.evaluations, ∀ skill ∈ engine.curriculum.skills,
        skill.id = evaluation.skill → skill.gate ∉ opened) ∧
      (engine.rules = .standard → ∀ id ∈ report.triggered,
        (engine.rules.evaluate id live spot).outcome.isApplicable = true ∧
          ∃ row grown, before.skills[id]? = some row ∧ after.skills[id]? = some grown ∧
            grown.opportunities.toNat = min (row.opportunities.toNat + 1) (2 ^ 32 - 1)) := by
  intro engine loaded before spot report
  have hkeyed : engine.Keyed := (keyed_launch hstore course journal).run operations
  obtain ⟨hwell, hcomplete⟩ : engine.curriculum.WellFormed ∧
      (engine.desk decision.player).Complete engine.curriculum :=
    complete_reached hstore haccepted journal htaught decision.player
  have hmissing : before.missing engine.curriculum = [] :=
    hkeyed.missing_loadFor hcomplete session now
  -- The decision is a fold over the skills that come up in the loaded record.
  let start := Draft.opening engine.course decision live loaded
  let final := start.finish engine.course decision live now
  have hdraft : (engine.endTurn session decision live now).draft = final :=
    engine.draft_endTurn session decision live now
  have htriggered : report.triggered = start.report.triggered :=
    (congrArg (fun draft => draft.report.triggered) hdraft).trans
      (Draft.triggered_finish engine.course live now decision loaded)
  have hevaluations : report.evaluations =
      start.report.triggered.map (engine.rules.evaluate · live spot) :=
    (congrArg (fun draft => draft.report.evaluations) hdraft).trans
      (Draft.evaluations_finish engine.course live now decision loaded)
  have hafter (id : String) (row : SkillRow) (hrow : before.row? id = some row) :
      final.record.row? id = some (if id ∈ start.report.triggered then
        engine.course.practiced live spot now id row else row) :=
    Draft.row?_finish live now decision hwell hrow
  obtain ⟨opened, rows, hadds⟩ : ∃ opened rows, Draft.Adds now start final opened rows :=
    Draft.adds_finish now hwell hmissing
  refine ⟨final.record, opened, rows, ?_, ?_, ?_, ?_, fun skill hskill hmem => ?_,
    fun id row hrow hother => ?_, ?_, ?_, hadds.gates, hadds.added, hadds.new,
    fun evaluation hmem skill hskill hid hgate => ?_, fun hrules id hmem => ?_⟩
  · exact (congrArg (Option.map Slot.record) (cached_decide session decision live now)).trans
      (congrArg (fun draft : Draft => some draft.record) hdraft)
  · rw [htriggered]
    exact Draft.triggered_opening engine.course live decision loaded
  · rw [htriggered]
    exact Draft.nodup_triggered hwell
  · rw [hevaluations, htriggered]
  · rw [htriggered] at hmem
    obtain ⟨row, hrow⟩ := Draft.exists_row_of_mem_opening hwell hmissing hmem
    refine ⟨row, hrow, (hafter skill.id row hrow).trans ?_⟩
    rw [if_pos hmem, Course.practiced_of_skill? (hwell.skill?_eq hskill)]
    rfl
  · refine (hafter id row hrow).trans ?_
    rw [htriggered] at hother
    rcases hother with hnot | hskipped
    · rw [if_neg hnot]
    · have hsame : engine.course.practiced live spot now id row = row :=
        Course.practiced_eq_self (fun happlies => by cases hskipped.symm.trans happlies) row
      rw [hsame, ite_self]
  · exact (congrArg (fun draft => draft.report.unlocked) hdraft).trans hadds.unlocked
  · exact (congrArg (fun draft => draft.report.backfilled) hdraft).trans hadds.backfilled
  · rw [hevaluations] at hmem
    obtain ⟨id, hcame, rfl⟩ := List.mem_map.mp hmem
    rw [RuleBook.skill_evaluate] at hid
    subst hid
    have hopen : before.isUnlocked skill.gate = true :=
      (Draft.comesUp_of_mem_opening hcame).1.isUnlocked hwell (hwell.skill?_eq hskill)
    have hlocked : before.isUnlocked skill.gate = false := ((hadds.gates skill.gate).mp hgate).1
    cases hlocked.symm.trans hopen
  · rw [htriggered] at hmem
    exact Draft.opportunities_finish_of_standard now hwell hmissing hrules hmem

/-- A returning player folds a marginal pair to a double barrel, as once before: both skills of the
hand take in an outcome, and the trash hand of the last session stays as it was. -/
theorem decision_practices_each_once_of_double_barrel :
    let trash : Decision :=
      { player := "ana", hand := 1, street := .preflop, flags := { trash := true } }
    let barrel : Decision :=
      { player := "ana", hand := 2, street := .turn, flags := { marginalMade := true }
        costToCall := 50.0, potTotal := 150.0, equity := some 0.125
        history := [⟨"bo", .flop, .bet, 25.0⟩, ⟨"bo", .turn, .bet, 50.0⟩] }
    let operations : List Operation :=
      [.onboard "ana" .intermediate .epoch, .decide "s" trash { action := .fold } .epoch,
        .decide "s" barrel { action := .fold } .epoch, .restart {} none]
    let engine := reached MemoryStore.empty {} none operations
    let before := (engine.loadFor "s" barrel .epoch).1.slot.record
    let decided := engine.decide "s" barrel { action := .fold } .epoch
    decided.1.triggered = ["pot_odds_call", "fold_to_double_barrel"] ∧
      ∃ after, (decided.2.slot? "ana").map Slot.record = some after ∧
        (∀ id ∈ decided.1.triggered, ∃ row grown, before.skills[id]? = some row ∧
          after.skills[id]? = some grown ∧ row.opportunities.toNat = 1 ∧
          grown.opportunities.toNat = 2) ∧
        ∃ row, before.skills["fold_trash_preflop"]? = some row ∧
          after.skills["fold_trash_preflop"]? = some row ∧ row.opportunities.toNat = 1 := by
  intro trash barrel operations
  have htaught : ∀ operation ∈ operations, ∀ other, operation.restarts? = some other →
      other.curriculum.Accepted := by
    intro operation hmem other hother
    simp only [operations, List.mem_cons, List.not_mem_nil, or_false] at hmem
    rcases hmem with rfl | rfl | rfl | rfl <;> cases hother
    exact .inl rfl
  have hdecided := decision_practices_each_once MemoryStore.empty
    (player_of_held_empty MemoryStore.find?_empty) {} (.inl rfl) none operations htaught "s" barrel
    { action := .fold } .epoch
  have hrules : (reached MemoryStore.empty {} none operations).rules = .standard := rfl
  have htriggered : ((reached MemoryStore.empty {} none operations).decide "s" barrel
      { action := .fold } .epoch).1.triggered = ["pot_odds_call", "fold_to_double_barrel"] := by
    decide +kernel
  have honce : ∀ id ∈ ["pot_odds_call", "fold_to_double_barrel"] ++ ["fold_trash_preflop"],
      (((reached MemoryStore.empty {} none operations).loadFor "s" barrel
        .epoch).1.slot.record.skills[id]?).map SkillRow.opportunities = some 1 := by
    decide +kernel
  -- No more of the engine is needed than these three facts.
  generalize reached MemoryStore.empty {} none operations = engine at *
  obtain ⟨after, -, -, hslot, -, -, -, -, hstays, -, -, -, -, -, -, hstandard⟩ := hdecided
  refine ⟨htriggered, after, hslot, fun id hmem => ?_, ?_⟩
  · obtain ⟨-, row, grown, hrow, hgrown, hcount⟩ := hstandard hrules id hmem
    rw [htriggered] at hmem
    have hrowOnce := honce id (List.mem_append_left ["fold_trash_preflop"] hmem)
    rw [hrow, Option.map_some, Option.some.injEq] at hrowOnce
    rw [hrowOnce] at hcount
    exact ⟨row, grown, hrow, hgrown, congrArg UInt32.toNat hrowOnce, hcount⟩
  · have htrash := honce "fold_trash_preflop" (List.mem_append_right _ (List.mem_singleton_self _))
    obtain ⟨row, hrow, hrowOnce⟩ := Option.map_eq_some_iff.mp htrash
    refine ⟨row, hrow, hstays _ row hrow (.inl ?_), congrArg UInt32.toNat hrowOnce⟩
    rw [htriggered]
    decide

end Engine

end PokerCoach
