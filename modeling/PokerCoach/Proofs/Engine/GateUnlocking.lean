import PokerCoach.Proofs.Progress.NextGate
import PokerCoach.Proofs.Engine.RecordInvariant
import PokerCoach.Proofs.Engine.Current
import Mathlib.Data.List.Induction

/-!
# When gates open

A decision opens the entry gate of a new player and at most one gate more: the one after the
frontier, as soon as enough skills at the frontier are graduated. No gate that is earned by a lesson
stays locked after it.
-/

namespace PokerCoach

open Std Time

/-! ### Within a decision -/

namespace Draft

variable (course : Course) (live : LiveAction) (spot : Situation) (now : Instant)

/-- The gate that one evaluation opens, if it opens any. -/
def opens? (draft : Draft) (skill : String) : Option UInt32 :=
  let evaluation := course.rules.evaluate skill live spot
  if evaluation.outcome.isApplicable then
    (course.curriculum.skill? skill).bind fun definition =>
      (draft.record.practice definition evaluation.outcome course.settings.marginalCredit
        now).earnedGate? course.curriculum skill
  else none

theorem opens?_eq_some {draft : Draft} {skill : String} {number : UInt32}
    (hopens : draft.opens? course live spot now skill = some number) :
    let evaluation := course.rules.evaluate skill live spot
    evaluation.outcome.isApplicable = true ∧ ∃ definition,
      course.curriculum.skill? skill = some definition ∧
        (draft.record.practice definition evaluation.outcome course.settings.marginalCredit
          now).earnedGate? course.curriculum skill = some number := by
  unfold opens? at hopens
  dsimp only at hopens
  split at hopens
  · rename_i happlicable
    obtain ⟨definition, hskill, hearned⟩ := Option.bind_eq_some_iff.mp hopens
    exact ⟨happlicable, definition, hskill, hearned⟩
  · cases hopens

theorem unlocked_judge (draft : Draft) (skill : String) :
    (draft.judge course live spot now skill).report.unlocked =
      draft.report.unlocked ++ (draft.opens? course live spot now skill).toList := by
  unfold judge opens?
  dsimp only
  split
  · cases hskill : course.curriculum.skill? skill with
    | none => simp [note]
    | some definition => exact unlocked_advance _ course.curriculum skill now
  · simp [note]

theorem opens?_judge_cases (draft : Draft) (skill : String) :
    ((draft.judge course live spot now skill).record = draft.record ∧
      draft.opens? course live spot now skill = none) ∨
    ∃ definition outcome, course.curriculum.skill? skill = some definition ∧
      (draft.judge course live spot now skill).record =
        draft.record.learn course.curriculum definition outcome course.settings.marginalCredit now ∧
      draft.opens? course live spot now skill =
        (draft.record.practice definition outcome course.settings.marginalCredit
          now).earnedGate? course.curriculum skill := by
  rcases draft.record_judge_cases course live spot now skill with
    ⟨hskip, hsame⟩ | ⟨definition, -, hskill, happlicable, hlearn⟩
  · refine .inl ⟨hsame, ?_⟩
    unfold opens?
    dsimp only
    split
    · rename_i happlicable
      rw [hskip happlicable, Option.bind_none]
    · rfl
  · refine .inr ⟨definition, _, hskill, hlearn, ?_⟩
    simp only [opens?, happlicable, if_true, hskill, Option.bind_some]

theorem isUnlocked_judge_of_opens? {draft : Draft} {skill : String} {number : UInt32}
    (hopens : draft.opens? course live spot now skill = some number) :
    (draft.judge course live spot now skill).record.isUnlocked number = true := by
  rcases draft.opens?_judge_cases course live spot now skill with
    ⟨-, hnone⟩ | ⟨definition, outcome, hskill, hrecord, hearned⟩
  · cases hnone.symm.trans hopens
  · obtain ⟨-, rfl⟩ := Curriculum.skill?_eq_some hskill
    rw [hrecord, PlayerRecord.learn, PlayerRecord.advance, hearned.symm.trans hopens]
    simp [PlayerRecord.isUnlocked_unlock]

/-- An evaluation of a skill of an open gate opens the gate after the frontier or none, and the one
only if the skill is taught at the frontier. -/
theorem opened_judge (hwell : course.curriculum.WellFormed) {draft : Draft} {frontier : Nat}
    (hopened : draft.record.Opened course.curriculum frontier) {skill : String}
    (hgate : ∀ definition, course.curriculum.skill? skill = some definition →
      definition.gate.toNat ≤ frontier) :
    (draft.opens? course live spot now skill = none ∧
      (draft.judge course live spot now skill).record.Opened course.curriculum frontier) ∨
    ∃ number : UInt32, draft.opens? course live spot now skill = some number ∧
      number.toNat = frontier + 1 ∧
      (draft.judge course live spot now skill).record.Opened course.curriculum (frontier + 1) ∧
      ∃ definition, course.curriculum.skill? skill = some definition ∧
        definition.gate.toNat = frontier := by
  rcases draft.opens?_judge_cases course live spot now skill with
    ⟨hrecord, hopens⟩ | ⟨definition, outcome, hskill, hrecord, hopens⟩
  · exact .inl ⟨hopens, hrecord ▸ hopened⟩
  · obtain ⟨hmem, rfl⟩ := Curriculum.skill?_eq_some hskill
    have hpractice := hopened.practice hwell hmem (hgate definition hskill) outcome
      course.settings.marginalCredit now
    rw [hrecord, hopens]
    unfold PlayerRecord.learn PlayerRecord.advance
    split
    · rename_i hearned
      exact .inl ⟨hearned, hpractice⟩
    · rename_i number hearned
      obtain ⟨hnumber, hbounded, hfrontier⟩ :=
        hpractice.earnedGate?_eq_some hwell hmem (hgate definition hskill) hearned
      have hnext := (hpractice.unlock hnumber hbounded now).touch now
      exact .inr ⟨number, hearned, hnumber, hnext.backfill hwell now, definition, hskill, hfrontier⟩

theorem unlocked_foldl_judge (hwell : course.curriculum.WellFormed) {draft : Draft}
    {frontier : Nat} (hopened : draft.record.Opened course.curriculum frontier)
    (skills : List String)
    (hskills : ∀ skill ∈ skills, ∀ definition, course.curriculum.skill? skill = some definition →
      definition.gate.toNat ≤ frontier) :
    let final := skills.foldl (judge course live spot now) draft
    (final.record.Opened course.curriculum frontier ∧
      final.report.unlocked = draft.report.unlocked) ∨
    (final.record.Opened course.curriculum (frontier + 1) ∧ ∃ number : UInt32,
      number.toNat = frontier + 1 ∧ final.report.unlocked = draft.report.unlocked ++ [number]) := by
  -- From the end, as an evaluation meets the frontier that those before it have left.
  induction skills using List.reverseRecOn with
  | nil => exact .inl ⟨hopened, rfl⟩
  | append_singleton before skill ih =>
      dsimp only at ih ⊢
      have hbefore := ih fun other hmem => hskills other (List.mem_append_left [skill] hmem)
      have hgate := hskills skill (List.mem_append_right before List.mem_cons_self)
      rw [List.foldl_append, List.foldl_cons, List.foldl_nil, unlocked_judge]
      rcases hbefore with ⟨hmiddle, hsame⟩ | ⟨hmiddle, number, hnumber, hone⟩
      · rcases opened_judge course live spot now hwell hmiddle hgate with
          ⟨hopens, hafter⟩ | ⟨number, hopens, hnumber, hafter, -⟩
        · rw [hopens, hsame, Option.toList_none, List.append_nil]
          exact .inl ⟨hafter, rfl⟩
        · rw [hopens, hsame]
          exact .inr ⟨hafter, number, hnumber, rfl⟩
      · rcases opened_judge course live spot now hwell hmiddle fun definition hskill =>
            Nat.le_succ_of_le (hgate definition hskill) with
          ⟨hopens, hafter⟩ | ⟨-, -, -, -, definition, hskill, hfrontier⟩
        · rw [hopens, hone, Option.toList_none, List.append_nil]
          exact .inr ⟨hafter, number, hnumber, rfl⟩
        · have hle := hgate definition hskill
          omega

/-- Every gate in the report was there before or is opened by one of the evaluations. -/
theorem mem_unlocked_foldl_judge {draft : Draft} {skills : List String} {number : UInt32}
    (hmem : number ∈ (skills.foldl (judge course live spot now) draft).report.unlocked) :
    number ∈ draft.report.unlocked ∨ ∃ before skill after, skills = before ++ skill :: after ∧
      (before.foldl (judge course live spot now) draft).opens? course live spot now skill =
        some number := by
  induction skills generalizing draft with
  | nil => exact .inl hmem
  | cons first rest ih =>
      rcases ih hmem with hearly | ⟨before, skill, after, rfl, hopens⟩
      · rw [unlocked_judge, List.mem_append, Option.mem_toList] at hearly
        rcases hearly with hearly | hopens
        · exact .inl hearly
        · exact .inr ⟨[], first, rest, rfl, hopens⟩
      · exact .inr ⟨first :: before, skill, after, rfl, hopens⟩

end Draft

theorem Desk.Loads.unlocked_eq {curriculum : Curriculum} {player : String} {now : Instant}
    {desk after : Desk} {loaded : Loaded}
    (hloads : desk.Loads curriculum player now loaded after) :
    loaded.unlocked = [] ∨ loaded.unlocked = [1] := by
  have hsetUp (base : PlayerRecord) (durable persisted : Bool) :
      (Loaded.setUp base curriculum now durable persisted).unlocked = [] ∨
        (Loaded.setUp base curriculum now durable persisted).unlocked = [1] := by
    unfold Loaded.setUp
    dsimp only
    split
    · exact .inr rfl
    · exact .inl rfl
  cases hloads with
  | standIn loaded hcached hloaded => exact hloaded ▸ hsetUp _ false true
  | changed loaded hneeds hloaded =>
      rw [hloaded]
      exact hsetUp _ true loaded.persisted
  | _ => exact .inl rfl

/-- The entry gate is reported where the current record did not have it. -/
theorem Desk.Loads.entry_of_mem_unlocked {curriculum : Curriculum} {player : String} {now : Instant}
    {desk after : Desk} {loaded : Loaded}
    (hloads : desk.Loads curriculum player now loaded after) (htrusted : desk.Trusted)
    (hafter : after.Unfailing) {number : UInt32} (hmem : number ∈ loaded.unlocked) :
    (∀ record, desk.current = some record → record.isUnlocked number = false) ∧
      loaded.slot.record.isUnlocked number = true := by
  rcases (hloads.trusted htrusted hafter).2 with ⟨hsame, -⟩ | hloaded
  · rw [hsame] at hmem
    cases hmem
  · rw [hloaded] at hmem ⊢
    unfold Loaded.setUp at hmem
    dsimp only at hmem
    split at hmem
    · rename_i hopened
      obtain rfl := List.mem_singleton.mp hmem
      refine ⟨fun record hrecord => ?_, (PlayerRecord.isSetUp_setUp _ curriculum now).1⟩
      by_contra hlocked
      have hopen : record.isUnlocked 1 = true := by simpa using hlocked
      simp [hrecord, PlayerRecord.ensureEntryGate, hopen] at hopened
    · cases hmem

namespace Engine

variable {σ : Type} [RecordStore σ] [LawfulStore σ] {engine : Engine (TracedStore σ)}
  (hkeyed : engine.Keyed) (hwell : engine.curriculum.WellFormed)
  (session : String) (decision : Decision) (live : LiveAction) (now : Instant)

section Report

variable (engine) in
theorem unlocked_decide :
    (engine.decide session decision live now).1.unlocked =
      ((engine.startTurn session decision live now).report.triggered.foldl
        (Draft.judge engine.course live (decision.situation (some live)) now)
        (engine.startTurn session decision live now).draft).report.unlocked := by
  have hdraft := engine.draft_turnAfter session decision live now
    (engine.startTurn session decision live now).report.triggered
  rw [← draft_startTurn] at hdraft
  rw [← hdraft]
  rfl

include hkeyed

theorem Keyed.unlocked_startTurn :
    (engine.startTurn session decision live now).report.unlocked = [] ∨
      (engine.startTurn session decision live now).report.unlocked = [1] :=
  (loads_loadFor (hkeyed decision.player) session now).unlocked_eq

theorem Keyed.eq_one_of_mem_unlocked_startTurn {session : String} {decision : Decision}
    {live : LiveAction} {now : Instant} {entry : UInt32}
    (hmem : entry ∈ (engine.startTurn session decision live now).report.unlocked) : entry = 1 := by
  rcases hkeyed.unlocked_startTurn session decision live now with hnone | hentry
  · rw [hnone] at hmem
    cases hmem
  · rw [hentry] at hmem
    exact List.mem_singleton.mp hmem

include hwell

theorem Keyed.sound_startTurn (hgates : engine.curriculum.gates ≠ [])
    (hall : (engine.desk decision.player).All fun record => record.Sound engine.curriculum) :
    (engine.startTurn session decision live now).slot.record.Sound engine.curriculum := by
  have hloads := loads_loadFor (hkeyed decision.player) session now
  have hloaded := hloads.all (PlayerRecord.invariant_sound hwell hgates) hall
  exact hloaded.cached _ hloads.cached_eq

omit hkeyed hwell in
theorem triggered_eq_nil (hgates : engine.curriculum.gates = []) :
    (engine.startTurn session decision live now).report.triggered = [] := by
  refine List.eq_nil_iff_forall_not_mem.mpr fun skill hmem => ?_
  obtain ⟨candidate, hcandidate, -⟩ := comesUp_of_mem_triggered hmem
  simp [Curriculum.skills, hgates] at hcandidate

theorem Keyed.pairwise_unlocked
    (hall : engine.curriculum.gates ≠ [] →
      (engine.desk decision.player).All fun record => record.Sound engine.curriculum) :
    (engine.decide session decision live now).1.unlocked.Pairwise (· < ·) := by
  have hstart := hkeyed.unlocked_startTurn session decision live now
  have hfirst : (engine.startTurn session decision live now).report.unlocked.Pairwise (· < ·) := by
    rcases hstart with hnone | hentry
    · rw [hnone]
      exact .nil
    · rw [hentry]
      exact List.pairwise_singleton _ _
  rw [unlocked_decide]
  by_cases hgates : engine.curriculum.gates = []
  · rw [triggered_eq_nil session decision live now hgates]
    exact hfirst
  · obtain ⟨frontier, hsound⟩ :=
      hkeyed.sound_startTurn hwell session decision live now hgates (hall hgates)
    have hopened : (engine.startTurn session decision live now).draft.record.Opened
        engine.course.curriculum frontier := hsound.toOpened
    have hjudged := Draft.unlocked_foldl_judge engine.course live (decision.situation (some live))
      now hwell hopened (engine.startTurn session decision live now).report.triggered
      fun skill hmem definition hskill =>
        (hsound.isUnlocked_iff.mp ((comesUp_of_mem_triggered hmem).isUnlocked hwell hskill)).2
    rcases hjudged with ⟨-, hsame⟩ | ⟨-, number, hnumber, hone⟩
    · rw [hsame]
      exact hfirst
    · rw [hone, List.pairwise_append]
      refine ⟨hfirst, List.pairwise_singleton _ _, fun entry hentry other hother => ?_⟩
      have hpos := hsound.entry
      have hone : entry = 1 := hkeyed.eq_one_of_mem_unlocked_startTurn
        (show entry ∈ (engine.startTurn session decision live now).report.unlocked from hentry)
      rw [hone, List.mem_singleton.mp hother,
        UInt32.lt_iff_toNat_lt, hnumber]
      exact Nat.lt_succ_of_le hpos

omit hkeyed in
/-- A gate after the entry gate is opened by an evaluation that graduates enough skills of the gate
before it; that one is open, and the new one locked, when the decision starts. -/
theorem earned_of_mem_unlocked {number : UInt32}
    (hlater : number ∉ (engine.startTurn session decision live now).report.unlocked)
    (hmem : number ∈ (engine.decide session decision live now).1.unlocked) :
    let start := engine.startTurn session decision live now
    ∃ gate ∈ engine.curriculum.gates, gate.number + 1 = number ∧
      start.slot.record.isUnlocked number = false ∧
      start.slot.record.isUnlocked gate.number = true ∧
      ∃ before skill after, start.report.triggered = before ++ skill.id :: after ∧
        let turn := engine.turnAfter session decision live now before
        let outcome :=
          (engine.rules.evaluate skill.id live (decision.situation (some live))).outcome
        turn.slot.record.isUnlocked number = false ∧
        gate.requiredReliable.toNat ≤
          (turn.recordOutcome skill outcome now).slot.record.graduated gate ∧
        (engine.turnAfter session decision live now (before ++ [skill.id])).slot.record.isUnlocked
          number = true := by
  intro start
  rw [unlocked_decide] at hmem
  rcases Draft.mem_unlocked_foldl_judge _ _ _ _ hmem with
    hentry | ⟨before, id, after, hsplit, hopens⟩
  · exact absurd hentry hlater
  have hdraft : before.foldl (Draft.judge engine.course live (decision.situation (some live)) now)
      start.draft = (engine.turnAfter session decision live now before).draft := by
    rw [draft_turnAfter, ← draft_startTurn]
  rw [hdraft] at hopens
  obtain ⟨happlicable, skill, hskill, hearned⟩ := Draft.opens?_eq_some _ _ _ _ hopens
  obtain ⟨hmemSkill, rfl⟩ := Curriculum.skill?_eq_some hskill
  obtain ⟨gate, next, hgateOf, hnext, rfl, hlocked, henough⟩ :=
    PlayerRecord.earnedGate?_eq_some hearned
  have hcourse : (engine.turnAfter session decision live now before).engine.settings =
      engine.settings :=
    congrArg Course.settings (engine.course_turnAfter session decision live now _)
  obtain ⟨hgate, hnumber⟩ := Curriculum.gateOf?_eq_some hgateOf hskill
  have hlockedStart : start.slot.record.isUnlocked next.number = false :=
    (Turn.record_foldl_judge_extends start session live _ now before).isLocked hlocked
  have hcomes : start.slot.record.ComesUp engine.curriculum skill.id :=
    comesUp_of_mem_triggered (hsplit ▸ List.mem_append_right before List.mem_cons_self)
  refine ⟨gate, hgate, (Curriculum.gate?_eq_some hnext).2.symm, hlockedStart, ?_, before, skill,
    after, hsplit, hlocked, ?_, ?_⟩
  · rw [hnumber]
    exact hcomes.isUnlocked hwell hskill
  · rw [Turn.record_recordOutcome, hcourse]
    exact henough
  · have hopened := Draft.isUnlocked_judge_of_opens? _ _ _ _ hopens
    rw [← hdraft] at hopened
    have hafter := engine.draft_turnAfter session decision live now (before ++ [skill.id])
    rw [List.foldl_append, ← draft_startTurn] at hafter
    exact (congrArg (fun draft => draft.record.isUnlocked next.number) hafter).trans hopened

/-- Without failing reads, the gates that a decision reports were locked in the current record
before it and are open in that after it. -/
theorem Keyed.locked_of_mem_unlocked (htrusted : (engine.desk decision.player).Trusted)
    (hafter : ((engine.decide session decision live now).2.desk decision.player).Unfailing)
    {number : UInt32} (hmem : number ∈ (engine.decide session decision live now).1.unlocked) :
    (∀ record, (engine.desk decision.player).current = some record →
      record.isUnlocked number = false) ∧
    ∃ record, ((engine.decide session decision live now).2.desk decision.player).current =
      some record ∧ record.isUnlocked number = true := by
  have hloads := loads_loadFor (hkeyed decision.player) session now
  have hunfailing :=
    hafter.of_accesses (moves_evaluations (hkeyed decision.player) session live now).accesses
  have hcurrent : ((engine.decide session decision live now).2.desk decision.player).current =
      some (engine.endTurn session decision live now).slot.record := by
    rw [desk_decide]
    rfl
  rw [hcurrent]
  by_cases hentry : number ∈ (engine.startTurn session decision live now).report.unlocked
  · have hgrown : (engine.endTurn session decision live now).slot.record.Extends
        (engine.loadFor session decision now).1.slot.record :=
      Turn.record_foldl_judge_extends _ session live _ now _
    have hopened := hloads.entry_of_mem_unlocked htrusted hunfailing hentry
    exact ⟨hopened.1, _, rfl, hgrown.isUnlocked hopened.2⟩
  · obtain ⟨gate, -, -, hlocked, -, before, skill, after, hsplit, -, -, hopened⟩ :=
      earned_of_mem_unlocked hwell session decision live now hentry hmem
    refine ⟨fun record hrecord => ?_, _, rfl, ?_⟩
    · obtain ⟨grown, hgrown, hextends⟩ := hloads.continues htrusted hunfailing record hrecord
      rw [Desk.current, hloads.cached_eq] at hgrown
      cases hgrown
      exact hextends.isLocked hlocked
    · have hlater := Turn.record_foldl_judge_extends
        (engine.turnAfter session decision live now (before ++ [skill.id])) session live
        (decision.situation (some live)) now after
      rw [turnAfter, ← List.foldl_append, List.append_assoc, List.singleton_append, ← hsplit]
        at hlater
      exact hlater.isUnlocked hopened

end Report

/-! ### Whole runs -/

include hkeyed hwell in
/-- Without a restart and without failing reads no gate is reported twice, and none that was open in
the beginning. -/
theorem Keyed.nodup_unlocked {player : String} {operations : List Operation}
    (hgoes : ∀ operation ∈ operations, operation.restarts? = none)
    (htrusted : (engine.desk player).Trusted)
    (hall : engine.curriculum.gates ≠ [] →
      (engine.desk player).All fun record => record.Sound engine.curriculum)
    (hafter : ((engine.run operations).desk player).Unfailing) :
    ((reportsOf player engine operations).flatMap DecisionReport.unlocked).Nodup ∧
      ∀ number ∈ (reportsOf player engine operations).flatMap DecisionReport.unlocked,
        ∀ record, (engine.desk player).current = some record →
          record.isUnlocked number = false := by
  induction operations generalizing engine with
  | nil => simp [reportsOf]
  | cons operation rest ih =>
      have hfirst := hgoes operation List.mem_cons_self
      have hrest := fun other hmem => hgoes other (List.mem_cons_of_mem operation hmem)
      have hcurriculum := engine.curriculum_step hfirst
      have hmoves := hkeyed.moves_step hfirst player
      have hunfailing := hafter.of_accesses
        ((hkeyed.step operation).moves_run hrest player).accesses
      obtain ⟨hstill, hcontinues⟩ := hmoves.continues htrusted hunfailing
      have hkept (hgates : (engine.step operation).curriculum.gates ≠ []) :
          ((engine.step operation).desk player).All fun record =>
            record.Sound (engine.step operation).curriculum := by
        rw [hcurriculum] at hgates ⊢
        exact hkeyed.all_step (PlayerRecord.invariant_sound hwell hgates) hfirst (hall hgates)
      obtain ⟨hnodup, hlocked⟩ :=
        ih (hkeyed.step operation) (hcurriculum ▸ hwell) hrest hstill hkept hafter
      have hbefore (number : UInt32)
          (hmem : number ∈ (reportsOf player (engine.step operation) rest).flatMap
            DecisionReport.unlocked)
          (record : PlayerRecord) (hrecord : (engine.desk player).current = some record) :
          record.isUnlocked number = false := by
        obtain ⟨grown, hgrown, hextends⟩ := hcontinues record hrecord
        exact hextends.isLocked (hlocked number hmem grown hgrown)
      cases hdecision : operation.decisionOf? player with
      | none =>
          rw [reportsOf_cons_of_decisionOf? _ hdecision]
          exact ⟨hnodup, hbefore⟩
      | some move =>
          obtain ⟨decision, live, now⟩ := move
          obtain ⟨session, rfl, rfl⟩ := Operation.decisionOf?_eq_some hdecision
          rw [reportsOf_cons_decide, if_pos rfl, List.singleton_append, List.flatMap_cons,
            List.nodup_append']
          have hnow (number : UInt32)
              (hmem : number ∈ (engine.decide session decision live now).1.unlocked) :=
            hkeyed.locked_of_mem_unlocked hwell session decision live now htrusted hunfailing hmem
          have hsorted := hkeyed.pairwise_unlocked hwell session decision live now hall
          -- What is reported now is open in the record between, what is reported later locked.
          refine ⟨⟨hsorted.imp fun hlt heq => ?_, hnodup, fun number hmem hlater => ?_⟩, ?_⟩
          · exact UInt32.lt_irrefl _ (heq ▸ hlt)
          · obtain ⟨record, hrecord, hopen⟩ := (hnow number hmem).2
            exact Bool.false_ne_true ((hlocked number hlater record hrecord).symm.trans hopen)
          · intro number hmem
            rcases List.mem_append.mp hmem with hmem | hmem
            · exact (hnow number hmem).1
            · exact hbefore number hmem

end Engine

namespace PlayerRecord

theorem invariant_noneMissed {curriculum : Curriculum} (hwell : curriculum.WellFormed)
    (hgates : curriculum.gates ≠ []) :
    RecordInvariant curriculum fun record =>
      record.Sound curriculum ∧ record.NoneMissed curriculum where
  fresh player now :=
    ⟨(invariant_sound hwell hgates).fresh player now,
      ((untouched_fresh player now).setUp now).noneMissed⟩
  onboard _ _ _ _ _ honboard :=
    ⟨sound_of_onboard? hwell hgates honboard, (untouched_of_onboard? honboard).noneMissed⟩
  setUp _ now hholds := by rwa [hholds.1.setUp_eq now]
  learn := by
    rintro record skill outcome marginalCredit now ⟨hsound, hmissed⟩ hskill hcomes -
    refine ⟨hsound.learn hwell hskill hcomes outcome marginalCredit now, ?_⟩
    obtain ⟨frontier, hsound⟩ := hsound
    exact hmissed.learn hwell hsound (Curriculum.skill?_eq_some hskill).1
      (hsound.isUnlocked_iff.mp (hcomes.isUnlocked hwell hskill)).2 outcome marginalCredit now

end PlayerRecord

namespace Engine

variable {σ : Type} [RecordStore σ] [LawfulStore σ]

/-- Gates open when they are earned and only then. In every record of a run the next gate is open,
unless too few skills of the gate before it are graduated or nothing was learned there. Every gate
that a decision reports, but for the entry gate, was locked when it started, with the gate before it
open, and is opened right after an outcome by which enough skills of that gate are graduated. The
gates in a report ascend, and no gate is reported twice to a player while one engine runs and its
reads of the player work. -/
theorem gates_open_when_earned (store : σ) (hempty : ∀ player, held store player = none)
    (course : Course) (haccepted : course.curriculum.Accepted) (journal : Option Journal)
    (operations : List Operation)
    (htaught : ∀ operation ∈ operations, ∀ other, operation.restarts? = some other →
      other.curriculum = course.curriculum) :
    let engine := reached store course journal operations
    (∀ player record, (∃ durable, engine.slot? player = some ⟨record, durable⟩) ∨
        held engine.store player = some record → record.NoneMissed course.curriculum) ∧
    (∀ session decision live now,
      let start := engine.startTurn session decision live now
      let report := (engine.decide session decision live now).1
      report.unlocked.Pairwise (· < ·) ∧
      ∀ number ∈ report.unlocked, number ≠ 1 →
        ∃ gate ∈ course.curriculum.gates, gate.number + 1 = number ∧
          start.slot.record.isUnlocked number = false ∧
          start.slot.record.isUnlocked gate.number = true ∧
          ∃ before skill after, start.report.triggered = before ++ skill.id :: after ∧
            let turn := engine.turnAfter session decision live now before
            let outcome :=
              (engine.rules.evaluate skill.id live (decision.situation (some live))).outcome
            turn.slot.record.isUnlocked number = false ∧
            gate.requiredReliable.toNat ≤
              (turn.recordOutcome skill outcome now).slot.record.graduated gate ∧
            (engine.turnAfter session decision live now
              (before ++ [skill.id])).slot.record.isUnlocked number = true) ∧
    ((∀ operation ∈ operations, operation.restarts? = none) →
      ∀ player, Access.read player false ∉ engine.store.accesses →
        ((reportsOf player (launch (TracedStore.watch store) course journal) operations).flatMap
          DecisionReport.unlocked).Nodup) := by
  intro engine
  have hwell := haccepted.wellFormed
  have hcurriculum : engine.curriculum = course.curriculum := curriculum_run _ htaught
  have hlaunched := keyed_launch_of_empty hempty course journal
  refine ⟨fun player record hrecord => ?_, fun session decision live now => ⟨?_, ?_⟩, ?_⟩
  · by_cases hgates : course.curriculum.gates = []
    · intro gate hgate
      rw [hgates] at hgate
      cases hgate
    · have hall := all_reached hempty (PlayerRecord.invariant_noneMissed hwell hgates) journal
        htaught player
      rcases hrecord with ⟨durable, hcached⟩ | hstored
      · exact (hall.cached _ hcached).2
      · exact (hall.stored _ hstored).2
  · refine (hlaunched.run operations).pairwise_unlocked (hcurriculum ▸ hwell) session decision live
      now fun hgates => ?_
    rw [hcurriculum] at hgates ⊢
    exact all_reached hempty (PlayerRecord.invariant_sound hwell hgates) journal htaught _
  · intro number hmem hlater
    rw [← hcurriculum]
    refine earned_of_mem_unlocked (hcurriculum ▸ hwell) session decision live now (fun hentry => ?_)
      hmem
    exact hlater ((hlaunched.run operations).eq_one_of_mem_unlocked_startTurn hentry)
  · intro hgoes player hreads
    refine (hlaunched.nodup_unlocked hwell hgoes ?_ (fun _ => ?_) (Desk.unfailing_desk hreads)).1
    · rw [desk_launch]
      rintro _ ⟨⟩
    · rw [desk_launch, hempty player]
      exact ⟨by rintro _ ⟨⟩, by rintro _ ⟨⟩⟩

/-- Seven trash hands folded and seven premium ones raised open the second gate, at the last raise
and once. -/
theorem gates_open_when_earned_by_folds_and_raises :
    let trash : Decision :=
      { player := "ana", hand := 1, street := .preflop, flags := { trash := true } }
    let premium : Decision :=
      { player := "ana", hand := 1, street := .preflop, flags := { premium := true } }
    let raised : LiveAction := { action := .raise }
    let fold : Operation := .decide "s" trash { action := .fold } .epoch
    let raise : Operation := .decide "s" premium raised .epoch
    let earlier := List.replicate 7 fold ++ List.replicate 6 raise
    let engine := reached MemoryStore.empty {} none earlier
    let start := engine.startTurn "s" premium raised .epoch
    let unlocked := (reportsOf "ana" (launch (TracedStore.watch MemoryStore.empty) {} none)
      (earlier ++ [raise])).flatMap DecisionReport.unlocked
    (engine.decide "s" premium raised .epoch).1.unlocked = [2] ∧
      (∃ gate ∈ Curriculum.standard.gates, gate.number + 1 = 2 ∧
        start.slot.record.isUnlocked 2 = false ∧ start.slot.record.isUnlocked gate.number = true ∧
        ∃ before skill after, start.report.triggered = before ++ skill.id :: after ∧
          let turn := engine.turnAfter "s" premium raised .epoch before
          let outcome :=
            (engine.rules.evaluate skill.id raised (premium.situation (some raised))).outcome
          gate.requiredReliable.toNat ≤
            (turn.recordOutcome skill outcome .epoch).slot.record.graduated gate) ∧
      2 ∈ unlocked ∧ unlocked.Nodup ∧
      ∃ record, held (reached MemoryStore.empty {} none (earlier ++ [raise])).store "ana" =
          some record ∧
        record.isUnlocked 2 = true ∧ record.isUnlocked 3 = false ∧
        record.NoneMissed .standard := by
  intro trash premium raised fold raise earlier engine start unlocked
  have hgoes : ∀ operation ∈ earlier ++ [raise], operation.restarts? = none := by
    simp [earlier, fold, raise, Operation.restarts?]
  have htaught : ∀ operation ∈ earlier ++ [raise], ∀ other, operation.restarts? = some other →
      other.curriculum = .standard := by
    intro operation hmem other hother
    cases (hgoes operation hmem).symm.trans hother
  have hopens : (engine.decide "s" premium raised .epoch).1.unlocked = [2] := by decide +kernel
  obtain ⟨-, hearned, -⟩ := gates_open_when_earned MemoryStore.empty MemoryStore.find?_empty {}
    (.inl rfl) none earlier fun operation hmem => htaught operation (List.mem_append_left _ hmem)
  obtain ⟨hmissed, -, honce⟩ := gates_open_when_earned MemoryStore.empty MemoryStore.find?_empty {}
    (.inl rfl) none (earlier ++ [raise]) htaught
  obtain ⟨gate, hgate, hnext, hlocked, hopen, before, skill, after, htriggered, -, hgraduated, -⟩ :=
    (hearned "s" premium raised .epoch).2 2 (by rw [hopens]; exact List.mem_singleton_self 2)
      (by decide)
  have hstored : ((held (reached MemoryStore.empty {} none (earlier ++ [raise])).store "ana").any
      fun record => record.isUnlocked 2 && !record.isUnlocked 3) = true := by decide +kernel
  obtain ⟨record, hrecord, hgates⟩ := (Option.any_eq_true _ _).mp hstored
  simp only [Bool.and_eq_true, Bool.not_eq_true'] at hgates
  refine ⟨hopens, ?_, by decide +kernel, honce hgoes "ana" (by decide +kernel), record, hrecord,
    hgates.1, hgates.2, hmissed "ana" record (.inr hrecord)⟩
  -- Written out, so that the engine of both sides is compared and not run.
  dsimp only [engine, start]
  exact ⟨gate, hgate, hnext, hlocked, hopen, before, skill, after, htriggered, hgraduated⟩

end Engine

end PokerCoach
