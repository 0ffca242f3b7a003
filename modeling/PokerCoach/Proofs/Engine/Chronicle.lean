import PokerCoach.Proofs.Engine.History
import PokerCoach.Proofs.Engine.Independence

/-!
# The journal is a history

As long as no read of a player fails, nothing that happens to the player is left out of a journal
that works. What it tells can be read from the beginning, one happening after the other, and leads
to where the player stands.
-/

namespace PokerCoach

open Std Time

namespace Desk

variable {curriculum : Curriculum} {player : String} {now : Instant} {desk after : Desk}
  {loaded : Loaded}

/-- What loading tells leads from the current record, or from nothing, to the one that is loaded. -/
theorem Loads.replay?_happenings (hloads : desk.Loads curriculum player now loaded after)
    (hwell : curriculum.WellFormed) (htrusted : desk.Trusted) (hafter : after.Unfailing) :
    (desk.current.getD (.fresh player now)).attainment.replay? curriculum
        (loaded.happenings player) = some loaded.slot.record.attainment := by
  rcases (hloads.trusted htrusted hafter).2 with ⟨hsame, hcurrent⟩ | hloaded
  · rw [hsame, hcurrent]
    rfl
  · generalize desk.current.getD (.fresh player now) = base at hloaded ⊢
    have hhappenings : loaded.happenings player = Engine.setupHappenings player
        (base.ensureEntryGate now).2 ((base.ensureEntryGate now).1.missing curriculum) := by
      rw [hloaded, Loaded.happenings, Loaded.setUp, Engine.setupHappenings,
        PlayerRecord.snd_backfill]
      dsimp only
      split <;> rfl
    rw [hhappenings, base.replay?_setUp now hwell player, hloaded]
    rfl

end Desk

namespace Engine

variable {σ : Type} [RecordStore σ] [LawfulStore σ] {engine : Engine (TracedStore σ)}
  {player : String}

section Decision

variable (hkeyed : engine.Keyed) (hwell : engine.curriculum.WellFormed)
include hkeyed hwell

/-- What the evaluations of a decision tell leads from the record that is loaded to the one that is
left. -/
theorem Keyed.replay?_evaluations (session : String) (decision : Decision) (live : LiveAction)
    (now : Instant)
    (hsound : engine.curriculum.gates ≠ [] →
      (engine.desk decision.player).All fun record => record.Sound engine.curriculum) :
    (engine.startTurn session decision live now).slot.record.attainment.replay? engine.curriculum
        ((engine.startTurn session decision live now).draft.happeningsAll engine.course live
          (decision.situation (some live)) now
          (engine.startTurn session decision live now).report.triggered) =
      some (engine.endTurn session decision live now).slot.record.attainment := by
  have hend := congrArg Draft.record (engine.draft_turnAfter session decision live now
    (engine.startTurn session decision live now).report.triggered)
  rw [← draft_startTurn] at hend
  have hrecord : (engine.endTurn session decision live now).slot.record = _ := hend
  rw [hrecord]
  by_cases hgates : engine.curriculum.gates = []
  · rw [triggered_eq_nil session decision live now hgates]
    rfl
  · have hstart : (engine.startTurn session decision live now).draft.record.Sound
        engine.course.curriculum :=
      hkeyed.sound_startTurn hwell session decision live now hgates (hsound hgates)
    exact Draft.replay?_happeningsAll engine.course live (decision.situation (some live)) now hwell
      hstart fun skill hmem => comesUp_of_mem_triggered hmem

/-- Without failing reads a decision leaves a durable record, and what it tells leads to that from
the current record, or from nothing. -/
theorem Keyed.replay?_decisionHappenings (session : String) (decision : Decision)
    (live : LiveAction) (now : Instant)
    (hsound : engine.curriculum.gates ≠ [] →
      (engine.desk decision.player).All fun record => record.Sound engine.curriculum)
    (htrusted : (engine.desk decision.player).Trusted)
    (hafter : ((engine.decide session decision live now).2.desk decision.player).Unfailing) :
    (engine.startTurn session decision live now).slot.durable = true ∧
    ∃ record, ((engine.decide session decision live now).2.desk decision.player).current =
        some record ∧
      ((engine.desk decision.player).current.getD (.fresh decision.player now)).attainment.replay?
        engine.curriculum (engine.decisionHappenings session decision live now) =
          some record.attainment := by
  have hloads := loads_loadFor (hkeyed decision.player) session now
  have hunfailing :=
    hafter.of_accesses (moves_evaluations (hkeyed decision.player) session live now).accesses
  refine ⟨(hloads.trusted htrusted hunfailing).1,
    (engine.endTurn session decision live now).slot.record, ?_, ?_⟩
  · rw [desk_decide]
    rfl
  · rw [decisionHappenings, Attainment.replay?_append,
      hloads.replay?_happenings hwell htrusted hunfailing, Option.bind_some]
    exact hkeyed.replay?_evaluations hwell session decision live now hsound

end Decision

variable (engine) in
theorem current_onboard (player : String) (experience : Experience) (now : Instant) :
    ((engine.onboard player experience now).1.isOk = false →
      ((engine.onboard player experience now).2.desk player).current =
        (engine.desk player).current) ∧
    ((engine.onboard player experience now).1.isOk = true →
      (engine.desk player).current = none) := by
  have honboards := engine.desk_onboard player experience now
  generalize (engine.onboard player experience now).2.desk player = after at honboards ⊢
  generalize (engine.onboard player experience now).1 = answer at honboards ⊢
  cases honboards with
  | known => exact ⟨fun _ => rfl, fun hdone => by cases hdone⟩
  | refused => exact ⟨fun _ => rfl, fun hdone => by cases hdone⟩
  | declined => exact ⟨fun _ => rfl, fun hdone => by cases hdone⟩
  | started hcached hstored honboard =>
      refine ⟨fun hfailed => (by cases hfailed), fun _ => ?_⟩
      rw [Desk.current, hcached, hstored]
      rfl

/-! ### Runs -/

/-- What the journal tells of a player leads to the current record; it tells nothing of a player
without one. -/
def Documents (engine : Engine (TracedStore σ)) (player : String) : Prop :=
  match (engine.desk player).current with
  | none => engine.told player = []
  | some record =>
      Attainment.blank.replay? engine.curriculum (engine.told player) = some record.attainment

theorem Documents.of_current {record : PlayerRecord}
    (hcurrent : (engine.desk player).current = some record)
    (hreplay : Attainment.blank.replay? engine.curriculum (engine.told player) =
      some record.attainment) : engine.Documents player := by
  rw [Documents, hcurrent]
  exact hreplay

theorem Documents.replay? (hdocuments : engine.Documents player) (now : Instant) :
    Attainment.blank.replay? engine.curriculum (engine.told player) =
      some ((engine.desk player).current.getD (.fresh player now)).attainment := by
  unfold Documents at hdocuments
  cases hcurrent : (engine.desk player).current with
  | none =>
      rw [hcurrent] at hdocuments
      rw [hdocuments, Option.getD_none, PlayerRecord.attainment_fresh]
      rfl
  | some record =>
      rw [hcurrent] at hdocuments
      exact hdocuments

/-- An engine whose journal has told all of a player, and goes on doing so. -/
structure Chronicles (engine : Engine (TracedStore σ)) (player : String) : Prop where
  keyed : engine.Keyed
  recording : engine.Recording
  trusted : (engine.desk player).Trusted
  sound : engine.curriculum.gates ≠ [] →
    (engine.desk player).All fun record => record.Sound engine.curriculum
  documents : engine.Documents player

namespace Chronicles

variable (hchronicles : engine.Chronicles player) (hwell : engine.curriculum.WellFormed)
include hchronicles hwell

theorem documents_step {operation : Operation} (hgoes : operation.restarts? = none)
    (hafter : ((engine.step operation).desk player).Unfailing) :
    (engine.step operation).Documents player := by
  have hcurriculum := engine.curriculum_step hgoes
  have hsame (hcurrent : ((engine.step operation).desk player).current =
        (engine.desk player).current)
      (htold : (engine.step operation).told player = engine.told player) :
      (engine.step operation).Documents player := by
    rw [Documents, hcurrent, htold, hcurriculum]
    exact hchronicles.documents
  by_cases hbrings : operation.brings player
  · rcases operation.brings_cases hbrings with
      ⟨session, decision, live, now, rfl, rfl⟩ | ⟨experience, now, rfl⟩
    · obtain ⟨hdurable, record, hcurrent, hreplay⟩ :=
        hchronicles.keyed.replay?_decisionHappenings hwell session decision live now
          hchronicles.sound hchronicles.trusted hafter
      have htold := hchronicles.keyed.told_decide hchronicles.recording session decision live now
        decision.player
      rw [if_pos ⟨rfl, hdurable⟩] at htold
      refine .of_current hcurrent ?_
      rw [hcurriculum, Engine.step, htold, Attainment.replay?_append,
        hchronicles.documents.replay? now, Option.bind_some, hreplay]
    · obtain ⟨hsameRecord, hnew⟩ := engine.current_onboard player experience now
      rcases engine.tellsAt_onboard player experience now with
        ⟨hfailed, htells⟩ | ⟨record, rows, honboard, hdone, hcached, htells⟩
      · refine hsame (hsameRecord hfailed) ?_
        rw [Engine.step, htells.tells.told_eq hchronicles.recording player (by simp), ite_self,
          List.append_nil]
      · have howner : ∀ happening ∈ onboardHappenings player experience record rows,
            happening.player = player := fun _ => player_of_mem_onboardHappenings
        have hnothing : engine.told player = [] := by
          have hdocuments := hchronicles.documents
          rwa [Documents, hnew (by rw [hdone]; rfl)] at hdocuments
        have hdesk : ((engine.step (.onboard player experience now)).desk player).cached =
          some ⟨record, true⟩ := hcached
        refine .of_current (by rw [Desk.current, hdesk]; rfl) ?_
        rw [hcurriculum, Engine.step, htells.tells.told_eq hchronicles.recording player howner,
          if_pos rfl, hnothing, List.nil_append]
        exact PlayerRecord.replay?_onboard hwell honboard
  · refine hsame ?_ (hchronicles.keyed.told_step_of_not_brings hchronicles.recording hgoes hbrings)
    rcases hchronicles.keyed.desk_step_of_not_brings hgoes hbrings with
      hdesk | ⟨asked, worked, hread⟩ | hreleases
    · rw [hdesk]
    · rw [hread]
      rfl
    · exact (hreleases.continues hchronicles.trusted).2

theorem step {operation : Operation} (hgoes : operation.restarts? = none)
    (hafter : ((engine.step operation).desk player).Unfailing) :
    (engine.step operation).Chronicles player := by
  have hcurriculum := engine.curriculum_step hgoes
  refine ⟨hchronicles.keyed.step operation, hchronicles.recording.step hgoes,
    ((hchronicles.keyed.moves_step hgoes player).continues hchronicles.trusted hafter).1, ?_,
    hchronicles.documents_step hwell hgoes hafter⟩
  rw [hcurriculum]
  exact fun hgates => hchronicles.keyed.all_step (PlayerRecord.invariant_sound hwell hgates) hgoes
    (hchronicles.sound hgates)

theorem run {operations : List Operation}
    (hgoes : ∀ operation ∈ operations, operation.restarts? = none)
    (hafter : ((engine.run operations).desk player).Unfailing) :
    (engine.run operations).Chronicles player := by
  induction operations generalizing engine with
  | nil => exact hchronicles
  | cons operation rest ih =>
      obtain ⟨hfirst, hrest⟩ := List.forall_mem_cons.mp hgoes
      have hcurriculum := engine.curriculum_step hfirst
      have hstep := hafter.of_accesses
        ((hchronicles.keyed.step operation).moves_run hrest player).accesses
      exact ih (hchronicles.step hwell hfirst hstep) (hcurriculum ▸ hwell) hrest hafter

/-- Without failing reads every decision leaves a durable record. -/
theorem reportsWhile_eq {operations : List Operation}
    (hgoes : ∀ operation ∈ operations, operation.restarts? = none)
    (hafter : ((engine.run operations).desk player).Unfailing) :
    reportsWhile true player engine operations = reportsOf player engine operations := by
  induction operations generalizing engine with
  | nil => rfl
  | cons operation rest ih =>
      obtain ⟨hfirst, hrest⟩ := List.forall_mem_cons.mp hgoes
      have hcurriculum := engine.curriculum_step hfirst
      have hstep := hafter.of_accesses
        ((hchronicles.keyed.step operation).moves_run hrest player).accesses
      have hlater := ih (hchronicles.step hwell hfirst hstep) (hcurriculum ▸ hwell) hrest hafter
      rw [reportsOf_cons, reportsWhile, hlater]
      congr 1
      split
      · rfl
      · rename_i htransient
        cases hdecision : operation.decisionOf? player with
        | none => exact (reportsOf_cons_of_decisionOf? engine hdecision []).symm
        | some move =>
            obtain ⟨decision, live, now⟩ := move
            obtain ⟨session, rfl, rfl⟩ := Operation.decisionOf?_eq_some hdecision
            have hdurable := (hchronicles.keyed.replay?_decisionHappenings hwell session decision
              live now hchronicles.sound hchronicles.trusted hstep).1
            exact absurd ((engine.isDurable_decide session decision live now).trans hdurable)
              htransient

omit hwell in
theorem missing_eq_nil {record : PlayerRecord}
    (hcurrent : (engine.desk player).current = some record) :
    record.missing engine.curriculum = [] := by
  by_cases hgates : engine.curriculum.gates = []
  · simp [PlayerRecord.missing, hgates]
  · obtain ⟨frontier, hsound⟩ := (hchronicles.sound hgates).current hcurrent
    exact hsound.isSetUp.2

end Chronicles

theorem chronicles_launch {store : σ} (hempty : ∀ player, held store player = none)
    (course : Course) {journal : Journal} (hopen : journal.blocked = false)
    (hnew : journal.entries = []) (player : String) :
    (launch (TracedStore.watch store) course (some journal)).Chronicles player where
  keyed := keyed_launch_of_empty hempty course (some journal)
  recording := recording_launch hopen
  trusted := by
    rw [desk_launch]
    rintro _ ⟨⟩
  sound _ := all_launch (hempty player) course (some journal) _
  documents := by
    rw [Documents, desk_launch, hempty player]
    exact told_launch hnew player

/-- On a new journal that works, over a store that was empty and whose reads of a player work,
whatever becomes of its writes: the journal tells all that is reported to the player, after where
onboarding started the player. Replayed from the beginning it leads, row by row and gate by gate, to
the player's progress, and every move starts from the level told last. -/
theorem journal_is_history (store : σ) (hempty : ∀ player, held store player = none)
    (course : Course) (haccepted : course.curriculum.Accepted) (journal : Journal)
    (hopen : journal.blocked = false) (hnew : journal.entries = []) (operations : List Operation)
    (hgoes : ∀ operation ∈ operations, operation.restarts? = none) (player : String) (now : Instant)
    (hreads : Access.read player false ∉
      ((reached store course (some journal) operations).progress player now).2.store.accesses) :
    let start := launch (TracedStore.watch store) course (some journal)
    let told := (start.run operations).told player
    let reports := reportsOf player start operations
    (told.filterMap Happening.transition? = reports.flatMap DecisionReport.transitions ∧
      told.filterMap Happening.gate? =
        startedWith player start operations ++ reports.flatMap DecisionReport.unlocked ∧
      told.filterMap Happening.backfill? = reports.flatMap DecisionReport.backfilled) ∧
    (((start.run operations).progress player now).1 = .error (.playerNotFound player) ∧ told = [] ∨
      ∃ record, ((start.run operations).progress player now).1 = .ok record ∧
        Attainment.blank.replay? course.curriculum told = some record.attainment) ∧
    ∀ before happening after transition, told = before ++ happening :: after →
      happening.transition? = some transition →
      ∃ attainment, Attainment.blank.replay? course.curriculum before = some attainment ∧
        attainment.level? transition.skill = some transition.source := by
  intro start told reports
  have hwell := haccepted.wellFormed
  have hstart : start.Chronicles player := chronicles_launch hempty course hopen hnew player
  have hfinal := Desk.unfailing_desk hreads
  have hafter := hfinal.of_accesses (moves_progress player now player).accesses
  have hend := hstart.run hwell hgoes hafter
  have hcurriculum : (start.run operations).curriculum = course.curriculum := by
    refine curriculum_run _ fun operation hmem other hrestarts => ?_
    cases (hgoes operation hmem).symm.trans hrestarts
  have hreplay := hend.documents.replay? now
  rw [hcurriculum] at hreplay
  have hchanges := hstart.keyed.changes_told_run hstart.recording hgoes player
  rw [hstart.reportsWhile_eq hwell hgoes hafter, told_launch hnew, Changes.ofHappenings_nil,
    Changes.empty_append] at hchanges
  refine ⟨⟨congrArg Changes.transitions hchanges, congrArg Changes.unlocked hchanges,
    congrArg Changes.backfilled hchanges⟩, ?_, ?_⟩
  · have hprogress := progress_eq_current (fun _ => hend.missing_eq_nil)
      (isOk_fetch_of_unfailing hfinal) now
    cases hcurrent : ((start.run operations).desk player).current with
    | none =>
        have hdocuments := hend.documents
        rw [Documents, hcurrent] at hdocuments
        exact .inl ⟨by rw [hprogress, hcurrent]; rfl, hdocuments⟩
    | some record =>
        rw [hcurrent] at hreplay
        exact .inr ⟨record, by rw [hprogress, hcurrent]; rfl, hreplay⟩
  · rintro before happening after transition hsplit hmoved
    rw [show (start.run operations).told player = _ from hsplit] at hreplay
    exact Attainment.level?_of_replay? hreplay hmoved

/-- What is told of a beginner, one of whose records is not written, leads to the beginner's
progress, past the hands of another. -/
theorem journal_is_history_of_beginner :
    let store : FaultyStore MemoryStore := { inner := .empty, writeFails := fun write => write = 2 }
    let fold (player : String) : Operation :=
      .decide "s" { player, hand := 1, street := .preflop, flags := { trash := true } }
        { action := .fold } .epoch
    let operations := .onboard "ana" .beginner .epoch :: fold "bo" :: List.replicate 6 (fold "ana")
    let journal : Journal := { path := "events.log" }
    ((reached store {} (some journal) operations).told "ana").filterMap Happening.transition? =
        (reportsOf "ana" (launch (TracedStore.watch store) {} (some journal)) operations).flatMap
          DecisionReport.transitions ∧
      (((reached store {} (some journal) operations).told "ana").filterMap
        Happening.transition?).length = 1 ∧
      ∃ record,
        ((reached store {} (some journal) operations).progress "ana" .epoch).1 = .ok record ∧
        Attainment.blank.replay? .standard
          ((reached store {} (some journal) operations).told "ana") = some record.attainment := by
  intro store fold operations journal
  have hgoes : ∀ operation ∈ operations, operation.restarts? = none := by decide
  have hreads : Access.read "ana" false ∉ ((reached store {} (some journal) operations).progress
      "ana" .epoch).2.store.accesses := by decide +kernel
  have htold : (((reached store {} (some journal) operations).told "ana").filterMap
      Happening.transition?).length = 1 := by decide +kernel
  obtain ⟨⟨htransitions, -⟩, hprogress, -⟩ := journal_is_history store MemoryStore.find?_empty {}
    (.inl rfl) journal rfl rfl operations hgoes "ana" .epoch hreads
  refine ⟨htransitions, htold, hprogress.resolve_left ?_⟩
  rintro ⟨-, hnothing⟩
  rw [show (reached store {} (some journal) operations).told "ana" = [] from hnothing] at htold
  cases htold

end Engine

end PokerCoach
