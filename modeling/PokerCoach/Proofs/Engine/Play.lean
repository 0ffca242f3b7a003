import PokerCoach.Proofs.Progress.Timeless
import PokerCoach.Proofs.Engine.Current

/-!
# Decisions on the current record

What a decision does to a player is a function of the current record: it is set up, evaluated and
reported on. The engine plays its decisions this way wherever it finds the current record, whatever
becomes of its writes, and the times of the decisions show in nothing but the times in the record.
-/

namespace PokerCoach

open Std Time

/-! ### Playing -/

namespace Course

variable (course : Course)

/-- A decision on the current record, or on a new one if there is none. -/
def play (current : Option PlayerRecord) (decision : Decision) (live : LiveAction) (now : Instant) :
    Draft :=
  (Draft.opening course decision live
    (.setUp (current.getD (.fresh decision.player now)) course.curriculum now true true)).finish
      course decision live now

/-- Decisions one after the other, with their reports and the record after the last. -/
def playAll : Option PlayerRecord → List (Decision × LiveAction × Instant) →
    List DecisionReport × Option PlayerRecord
  | current, [] => ([], current)
  | current, (decision, live, now) :: rest =>
      let draft := course.play current decision live now
      let (reports, last) := playAll (some draft.record) rest
      (draft.report :: reports, last)

end Course

namespace Draft

variable (course : Course) (live : LiveAction) (spot : Situation) (now : Instant)

theorem isSetUp_judge {draft : Draft} (hset : draft.record.IsSetUp course.curriculum)
    (skill : String) :
    (draft.judge course live spot now skill).record.IsSetUp course.curriculum :=
  ⟨(draft.record_judge_extends course live spot now skill).isUnlocked hset.1,
    missing_judge course live spot now hset.2 skill⟩

theorem isSetUp_foldl_judge (skills : List String) {draft : Draft}
    (hset : draft.record.IsSetUp course.curriculum) :
    (skills.foldl (judge course live spot now) draft).record.IsSetUp course.curriculum := by
  induction skills generalizing draft with
  | nil => exact hset
  | cons skill rest ih => exact ih (isSetUp_judge course live spot now hset skill)

end Draft

theorem Course.isSetUp_play (course : Course) (current : Option PlayerRecord) (decision : Decision)
    (live : LiveAction) (now : Instant) :
    (course.play current decision live now).record.IsSetUp course.curriculum :=
  Draft.isSetUp_foldl_judge course live _ now _
    ((current.getD (.fresh decision.player now)).isSetUp_setUp course.curriculum now)

/-! ### Times -/

/-- The draft without the times in its record; the report has none. -/
def Draft.timeless (draft : Draft) : Draft :=
  { draft with record := draft.record.timeless }

namespace Draft

variable (course : Course) (decision : Decision) (live : LiveAction) (spot : Situation)
  (now : Instant) (draft : Draft)

theorem timeless_practice (skill : Skill) (outcome : Outcome) (marginalCredit : Float) :
    draft.timeless.practice skill outcome marginalCredit .epoch =
      (draft.practice skill outcome marginalCredit now).timeless := by
  have hrow := (draft.record.rowFor skill.id now).timeless_record skill.evidence marginalCredit now
    outcome
  unfold practice timeless
  dsimp only
  rw [PlayerRecord.timeless_practice, PlayerRecord.timeless_rowFor, hrow.2]

theorem timeless_advance (curriculum : Curriculum) (skill : String) :
    draft.timeless.advance curriculum skill .epoch =
      (draft.advance curriculum skill now).timeless := by
  have hrecord : draft.timeless.record = draft.record.timeless := rfl
  unfold advance
  rw [hrecord, PlayerRecord.earnedGate?_timeless]
  split
  · rfl
  · rename_i gate _
    have hopened : ((draft.record.timeless.unlock gate .epoch).touch .epoch) =
        ((draft.record.unlock gate now).touch now).timeless := by
      rw [PlayerRecord.timeless_touch, PlayerRecord.timeless_unlock]
    dsimp only
    rw [PlayerRecord.timeless_advance, hopened, PlayerRecord.snd_backfill,
      PlayerRecord.snd_backfill, PlayerRecord.missing_timeless]
    rfl

theorem timeless_judge (skill : String) :
    draft.timeless.judge course live spot .epoch skill =
      (draft.judge course live spot now skill).timeless := by
  unfold judge
  dsimp only
  split
  · split
    · rfl
    · rw [← timeless_advance, ← timeless_practice]
      rfl
  · rfl

theorem timeless_foldl_judge (skills : List String) :
    skills.foldl (judge course live spot .epoch) draft.timeless =
      (skills.foldl (judge course live spot now) draft).timeless := by
  induction skills generalizing draft with
  | nil => rfl
  | cons skill rest ih => rw [List.foldl_cons, timeless_judge, ih, List.foldl_cons]

theorem timeless_opening (base : PlayerRecord) (durable persisted : Bool) :
    opening course decision live (.setUp base.timeless course.curriculum .epoch durable persisted) =
      (opening course decision live
        (.setUp base course.curriculum now durable persisted)).timeless := by
  have hentry := base.timeless_ensureEntryGate now
  unfold opening Loaded.setUp timeless
  simp only [base.timeless_setUp course.curriculum now, hentry.1, hentry.2,
    PlayerRecord.snd_backfill, PlayerRecord.missing_timeless, PlayerRecord.isUnlocked_timeless]

end Draft

namespace Course

variable (course : Course)

theorem timeless_play (current : Option PlayerRecord) (decision : Decision) (live : LiveAction)
    (now : Instant) :
    course.play (current.map PlayerRecord.timeless) decision live .epoch =
      (course.play current decision live now).timeless := by
  have hbase : (current.map PlayerRecord.timeless).getD (.fresh decision.player .epoch) =
      (current.getD (.fresh decision.player now)).timeless := by
    cases current with
    | none => exact (PlayerRecord.timeless_fresh now decision.player).symm
    | some record => rfl
  unfold play Draft.finish
  rw [hbase, Draft.timeless_opening _ _ _ now]
  exact Draft.timeless_foldl_judge course live _ now _ _

theorem isSetUp_playAll {current : Option PlayerRecord}
    (hset : ∀ record, current = some record → record.IsSetUp course.curriculum)
    (moves : List (Decision × LiveAction × Instant)) :
    ∀ record, (course.playAll current moves).2 = some record →
      record.IsSetUp course.curriculum := by
  induction moves generalizing current with
  | nil => exact hset
  | cons move rest ih =>
      refine ih fun record hrecord => ?_
      cases hrecord
      exact course.isSetUp_play current move.1 move.2.1 move.2.2

/-- The times of decisions change no report and nothing of the record but its times. -/
theorem timeless_playAll (current : Option PlayerRecord)
    (moves : List (Decision × LiveAction × Instant)) :
    course.playAll (current.map PlayerRecord.timeless)
        (moves.map fun move => (move.1, move.2.1, .epoch)) =
      ((course.playAll current moves).1,
        (course.playAll current moves).2.map PlayerRecord.timeless) := by
  induction moves generalizing current with
  | nil => rfl
  | cons move rest ih =>
      obtain ⟨decision, live, now⟩ := move
      have hrest := ih (some (course.play current decision live now).record)
      rw [Option.map_some] at hrest
      simp only [List.map_cons, playAll, course.timeless_play current decision live now]
      rw [show (course.play current decision live now).timeless.record =
        (course.play current decision live now).record.timeless from rfl, hrest]
      rfl

theorem playAll_congr {moves others : List (Decision × LiveAction × Instant)}
    (hsame : moves.map (fun move => (move.1, move.2.1)) =
      others.map fun move => (move.1, move.2.1)) :
    (course.playAll none moves).1 = (course.playAll none others).1 ∧
      (course.playAll none moves).2.map PlayerRecord.timeless =
        (course.playAll none others).2.map PlayerRecord.timeless := by
  have hepoch : (moves.map fun move => (move.1, move.2.1, Instant.epoch)) =
      others.map fun move => (move.1, move.2.1, Instant.epoch) := by
    have hpairs := congrArg (List.map fun pair => (pair.1, pair.2, Instant.epoch)) hsame
    rwa [List.map_map, List.map_map] at hpairs
  have hplayed := course.timeless_playAll none moves
  rw [hepoch, timeless_playAll] at hplayed
  exact ⟨(congrArg Prod.fst hplayed).symm, (congrArg Prod.snd hplayed).symm⟩

end Course

/-! ### What the engine plays -/

namespace Desk

/-- A load cannot miss what is stored: there is nothing, or it is cached, or the reads work. -/
def InSight (desk after : Desk) : Prop :=
  desk.stored = none ∨ desk.Trusted ∧ (desk.cached = none → after.Unfailing)

theorem InSight.of_accesses {desk middle after : Desk} (hsight : desk.InSight after)
    (haccesses : middle.accesses <+: after.accesses) : desk.InSight middle :=
  hsight.imp_right fun ⟨htrusted, hreads⟩ =>
    ⟨htrusted, fun hcached => (hreads hcached).of_accesses haccesses⟩

theorem Loads.eq_setUp {curriculum : Curriculum} {player : String} {now : Instant}
    {desk after : Desk} {loaded : Loaded}
    (hloads : desk.Loads curriculum player now loaded after)
    (hset : ∀ record, desk.current = some record → record.IsSetUp curriculum)
    (hsight : desk.InSight after) :
    loaded = .setUp (desk.current.getD (.fresh player now)) curriculum now loaded.slot.durable
      loaded.persisted := by
  have hfound (slot : Slot) (hcurrent : desk.current = some slot.record) :
      ({ slot } : Loaded) = .setUp (desk.current.getD (.fresh player now)) curriculum now
        slot.durable true := by
    rw [hcurrent, Option.getD_some, (hset _ hcurrent).loaded_eq]
  cases hloads with
  | durable record hcached => exact hfound ⟨record, true⟩ (by simp [current, hcached])
  | unread record hcached => exact hfound ⟨record, false⟩ (by simp [current, hcached])
  | standIn loaded hcached hloaded =>
      rcases hsight with hstored | ⟨-, hreads⟩
      · rw [hloaded]
        simp [current, hcached, hstored, Loaded.setUp]
      · exact absurd (hreads hcached) (not_unfailing_read desk player)
  | unchanged record hneeds hstored hset =>
      rcases hsight with hnone | ⟨htrusted, -⟩
      · cases hnone.symm.trans hstored
      · have hcached := htrusted.cached_eq_none hneeds
        exact hfound ⟨record, true⟩ (by simp [current, hcached, hstored])
  | changed loaded hneeds hloaded =>
      have hbasis : desk.basis player now = desk.current.getD (.fresh player now) := by
        rcases hsight with hstored | ⟨htrusted, -⟩
        · simp [basis, current, hstored]
        · exact basis_of_cached_eq_none (htrusted.cached_eq_none hneeds) player now
      rw [hbasis] at hloaded
      have hdurable : loaded.slot.durable = true := by rw [hloaded]; rfl
      rw [hdurable]
      exact hloaded

end Desk

namespace Engine

variable {σ : Type} [RecordStore σ] [LawfulStore σ] {engine : Engine (TracedStore σ)}

/-- A decision that finds the current record plays on it. -/
theorem decide_eq_play {decision : Decision}
    (hkeyed : (engine.desk decision.player).Keyed decision.player) (session : String)
    (live : LiveAction) (now : Instant)
    (hset : ∀ record, (engine.desk decision.player).current = some record →
      record.IsSetUp engine.curriculum)
    (hsight : (engine.desk decision.player).InSight
      ((engine.decide session decision live now).2.desk decision.player)) :
    let draft := engine.course.play (engine.desk decision.player).current decision live now
    (engine.decide session decision live now).1.asPersisted = draft.report ∧
      ((engine.decide session decision live now).2.desk decision.player).current =
        some draft.record := by
  have hloaded := (loads_loadFor hkeyed session now).eq_setUp hset
    (hsight.of_accesses (moves_evaluations hkeyed session live now).accesses)
  have hdraft := engine.draft_endTurn session decision live now
  have hopening : Draft.opening engine.course decision live
      (engine.loadFor session decision now).1 =
        .opening engine.course decision live (.setUp ((engine.desk decision.player).current.getD
          (.fresh decision.player now)) engine.course.curriculum now true true) := by
    rw [hloaded]
    rfl
  rw [hopening] at hdraft
  refine ⟨congrArg Draft.report hdraft, ?_⟩
  rw [desk_decide]
  exact congrArg (fun draft => some draft.record) hdraft

theorem desk_progress (asked : String) (now : Instant) (player : String) :
    (engine.progress asked now).2.desk player = engine.desk player ∨
      ∃ worked, (engine.progress asked now).2.desk player =
        (engine.desk player).read asked worked := by
  rcases engine.snd_progress asked now with hsame | hfetched
  · exact .inl (by rw [hsame])
  · rw [hfetched, desk_fetch]
    split
    · exact .inr ⟨_, rfl⟩
    · exact .inl rfl

/-- What is no decision of a player at most reads or releases the record. -/
theorem Keyed.desk_step_of_decisionOf? (hkeyed : engine.Keyed) {operation : Operation}
    {player : String} (hgoes : operation.restarts? = none) (hknown : operation.onboards = false)
    (hother : operation.decisionOf? player = none) :
    (engine.step operation).desk player = engine.desk player ∨
      (∃ asked worked, (engine.step operation).desk player =
        (engine.desk player).read asked worked) ∨
      operation.closes = true ∧
        (engine.desk player).Releases ((engine.step operation).desk player) := by
  have hread (asked : String) (now : Instant) :
      (engine.progress asked now).2.desk player = engine.desk player ∨
        ∃ asked' worked, (engine.progress asked now).2.desk player =
          (engine.desk player).read asked' worked :=
    (desk_progress asked now player).imp_right fun hworked => ⟨asked, hworked⟩
  cases operation with
  | decide session decision live now =>
      have hne : decision.player ≠ player := by
        rintro rfl
        simp [Operation.decisionOf?] at hother
      exact .inl (desk_decide_of_ne (hkeyed decision.player) session live now hne)
  | endSession session now =>
      exact (hkeyed.desk_endSession session now player).imp_right fun hreleases =>
        .inr ⟨rfl, hreleases⟩
  | startSession session owner now =>
      simp only [Engine.step, startSession]
      split <;> exact .inl rfl
  | noteSurfaced session skill hand =>
      simp only [Engine.step, noteSurfaced]
      split <;> exact .inl rfl
  | progress asked now => exact (hread asked now).imp_right .inl
  | coachingMode asked skill now =>
      rcases engine.desk_coachingMode asked skill now player with hsame | hasked
      · exact .inl hsame
      · rw [Engine.step, hasked]
        exact (hread asked now).imp_right .inl
  | skillSummaries asked now => exact (hread asked now).imp_right .inl
  | onboard newcomer experience now => cases hknown
  | restart course journal => cases hgoes

theorem Keyed.current_step (hkeyed : engine.Keyed) {operation : Operation} {player : String}
    (hgoes : operation.restarts? = none) (hknown : operation.onboards = false)
    (hother : operation.decisionOf? player = none)
    (hkept : operation.closes = true → (engine.desk player).Trusted) :
    ((engine.step operation).desk player).current = (engine.desk player).current := by
  rcases hkeyed.desk_step_of_decisionOf? hgoes hknown hother with
    hsame | ⟨asked, worked, hread⟩ | ⟨hcloses, hreleases⟩
  · rw [hsame]
  · rw [hread]
    rfl
  · exact (hreleases.continues (hkept hcloses)).2

/-- An operation finds the current record of a player: no load misses it, no release forgets it. -/
def Finds (engine : Engine (TracedStore σ)) (player : String) (operation : Operation) : Prop :=
  (engine.desk player).InSight ((engine.step operation).desk player) ∧
    (operation.closes = true → (engine.desk player).Trusted)

/-- An operation plays on the current record of a player if it is a decision of that player, and
leaves the record as it is otherwise. -/
def Plays (engine : Engine (TracedStore σ)) (player : String) (operation : Operation) : Prop :=
  (∀ record, (engine.desk player).current = some record → record.IsSetUp engine.curriculum) →
  match operation.decisionOf? player with
  | none => ((engine.step operation).desk player).current = (engine.desk player).current
  | some (decision, live, now) =>
      let draft := engine.course.play (engine.desk player).current decision live now
      (engine.report? operation).map DecisionReport.asPersisted = some draft.report ∧
        ((engine.step operation).desk player).current = some draft.record

theorem plays_decide {decision : Decision}
    (hkeyed : (engine.desk decision.player).Keyed decision.player) (session : String)
    (live : LiveAction) (now : Instant)
    (hsight : (engine.desk decision.player).InSight
      ((engine.decide session decision live now).2.desk decision.player)) :
    engine.Plays decision.player (.decide session decision live now) := by
  intro hset
  obtain ⟨hreport, hcurrent⟩ := decide_eq_play hkeyed session live now hset hsight
  simp only [Operation.decisionOf?, if_true]
  exact ⟨congrArg some hreport, hcurrent⟩

theorem Keyed.plays_of_finds (hkeyed : engine.Keyed) {operation : Operation} {player : String}
    (hgoes : operation.restarts? = none) (hknown : operation.onboards = false)
    (hfinds : engine.Finds player operation) : engine.Plays player operation := by
  cases hdecision : operation.decisionOf? player with
  | none =>
      intro _
      rw [hdecision]
      exact hkeyed.current_step hgoes hknown hdecision hfinds.2
  | some move =>
      obtain ⟨decision, live, now⟩ := move
      obtain ⟨session, rfl, rfl⟩ := Operation.decisionOf?_eq_some hdecision
      exact plays_decide (hkeyed decision.player) session live now hfinds.1

/-- As long as its current record is played on, a player is taught as by the decisions alone. -/
theorem run_eq_playAll {player : String} {operations : List Operation}
    (hgoes : ∀ operation ∈ operations, operation.restarts? = none)
    (hset : ∀ record, (engine.desk player).current = some record →
      record.IsSetUp engine.curriculum)
    (hplays : ∀ before operation after, operations = before ++ operation :: after →
      (engine.run before).Plays player operation) :
    (reportsOf player engine operations).map DecisionReport.asPersisted =
        (engine.course.playAll (engine.desk player).current
          (operations.filterMap (Operation.decisionOf? player))).1 ∧
      ((engine.run operations).desk player).current =
        (engine.course.playAll (engine.desk player).current
          (operations.filterMap (Operation.decisionOf? player))).2 := by
  induction operations generalizing engine with
  | nil => exact ⟨rfl, rfl⟩
  | cons operation rest ih =>
      have hfirst : engine.Plays player operation := hplays [] operation rest rfl
      have hplay := hfirst hset
      have hrest := fun other hmem => hgoes other (List.mem_cons_of_mem operation hmem)
      have hlater (before : List Operation) (other : Operation) (after : List Operation)
          (hsplit : rest = before ++ other :: after) :=
        hplays (operation :: before) other after (congrArg (operation :: ·) hsplit)
      have hcourse := engine.course_step (hgoes operation List.mem_cons_self)
      have hcurriculum : (engine.step operation).curriculum = engine.curriculum :=
        congrArg Course.curriculum hcourse
      cases hdecision : operation.decisionOf? player with
      | none =>
          rw [hdecision] at hplay
          dsimp only at hplay
          have hplayed := ih hrest (by rw [hplay, hcurriculum]; exact hset) hlater
          rw [hcourse, hplay] at hplayed
          rw [reportsOf_cons_of_decisionOf? _ hdecision, List.filterMap_cons_none hdecision]
          exact hplayed
      | some move =>
          obtain ⟨decision, live, now⟩ := move
          obtain ⟨session, rfl, rfl⟩ := Operation.decisionOf?_eq_some hdecision
          rw [hdecision] at hplay
          obtain ⟨hreport, hcurrent⟩ := hplay
          have hplayed := ih hrest (fun record hrecord => ?_) hlater
          · rw [hcourse, hcurrent] at hplayed
            rw [reportsOf_cons_decide, if_pos rfl, List.filterMap_cons_some hdecision]
            refine ⟨?_, hplayed.2⟩
            rw [List.singleton_append, List.map_cons, Option.some.inj hreport]
            exact congrArg (_ :: ·) hplayed.1
          · rw [hcurriculum]
            cases hcurrent.symm.trans hrecord
            exact engine.course.isSetUp_play _ decision live now

end Engine

end PokerCoach
