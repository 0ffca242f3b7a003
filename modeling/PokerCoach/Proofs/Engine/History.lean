import PokerCoach.Proofs.Engine.Telling
import PokerCoach.Proofs.Engine.Openings
import Mathlib.Data.List.Flatten

/-!
# The journal of a run

What the journal says of a player after a run: where onboarding has started the player, and what was
reported of every decision that has left a durable record. What is reported while a record stands in
for one that could not be read is not told, also not once that record has become the durable one.
-/

namespace PokerCoach

open Std Time

def Changes.ofReports (reports : List DecisionReport) : Changes where
  transitions := reports.flatMap DecisionReport.transitions
  unlocked := reports.flatMap DecisionReport.unlocked
  backfilled := reports.flatMap DecisionReport.backfilled

theorem Engine.player_of_mem_onboardHappenings {player : String} {experience : Experience}
    {record : PlayerRecord} {rows : List Backfill} {happening : Happening}
    (hmem : happening ∈ onboardHappenings player experience record rows) :
    happening.player = player := by
  rcases List.mem_cons.mp hmem with rfl | hmem
  · rfl
  · obtain ⟨gate, -, rfl⟩ := List.mem_map.mp hmem
    rfl

theorem Changes.ofHappenings_onboard (player : String) (experience : Experience)
    (record : PlayerRecord) (rows : List Backfill) :
    ofHappenings (Engine.onboardHappenings player experience record rows) =
      { unlocked := record.openGates } := by
  rw [Engine.onboardHappenings, ← List.singleton_append, ofHappenings_append,
    ofHappenings_gateUnlocked]
  exact empty_append _

/-! ### Records that are there to stay -/

namespace Desk

/-- The record of the player is durable or stored. -/
def Lasts (desk : Desk) : Prop :=
  desk.stored ≠ none ∨ ∃ record, desk.cached = some ⟨record, true⟩

variable {curriculum : Curriculum} {player : String} {desk after : Desk}

theorem Lasts.write (hlasts : desk.Lasts) (record : PlayerRecord) (worked : Bool) :
    (desk.write record worked).Lasts := by
  refine hlasts.imp_left fun hstored => ?_
  cases worked with
  | true => exact Option.some_ne_none record
  | false => exact hstored

theorem lasts_hold (desk : Desk) (record : PlayerRecord) : (desk.hold ⟨record, true⟩).Lasts :=
  .inr ⟨record, rfl⟩

theorem Loads.lasts {now : Instant} {loaded : Loaded}
    (hloads : desk.Loads curriculum player now loaded after) (hlasts : desk.Lasts) :
    after.Lasts := by
  cases hloads with
  | durable record hcached => exact hlasts
  | unread record hcached => exact hlasts
  | standIn loaded hcached hloaded =>
      refine hlasts.imp_right ?_
      rintro ⟨record, hother⟩
      cases hcached.symm.trans hother
  | unchanged record hneeds hstored hset => exact lasts_hold _ record
  | changed loaded hneeds hloaded =>
      rw [hloaded]
      exact (lasts_hold _ _).write _ _

theorem Releases.lasts (hreleases : desk.Releases after) (hlasts : desk.Lasts) : after.Lasts := by
  cases hreleases with
  | absent hcached => exact hlasts
  | saved record hcached => exact .inl (Option.some_ne_none record)
  | kept record hcached => exact hlasts.write record false
  | forgotten record hcached =>
      refine hlasts.imp_right ?_
      rintro ⟨other, hother⟩
      cases hcached.symm.trans hother

theorem Move.lasts (hmove : desk.Move curriculum player after) (hlasts : desk.Lasts) :
    after.Lasts := by
  cases hmove with
  | read worked => exact hlasts
  | load now hloads => exact hloads.lasts hlasts
  | learn slot skill outcome marginalCredit now worked hcached hskill happlicable hcomes =>
      rcases slot with ⟨record, durable⟩
      cases durable with
      | true => exact (lasts_hold desk _).write _ worked
      | false =>
          refine .inl (hlasts.resolve_right ?_)
          rintro ⟨other, hother⟩
          cases hcached.symm.trans hother
  | release hreleases => exact hreleases.lasts hlasts
  | onboard experience now hcached hstored honboard => exact lasts_hold _ _
  | decline experience now hcached hstored honboard => exact hlasts.write _ false

end Desk

namespace Engine

/-! ### What the journal says of a player -/

section Told

variable {σ : Type}

def told (engine : Engine σ) (player : String) : List Happening :=
  engine.happenings.filter fun happening => happening.player == player

theorem Tells.told_eq {engine after : Engine σ} {happenings : List Happening}
    (htells : engine.Tells happenings after) (hrecording : engine.Recording) (owner : String)
    (howner : ∀ happening ∈ happenings, happening.player = owner) (player : String) :
    after.told player = engine.told player ++ if owner = player then happenings else [] := by
  rw [told, (htells hrecording).2, List.filter_append]
  congr 1
  split
  · rename_i heq
    exact List.filter_eq_self.mpr fun happening hmem => by simp [howner happening hmem, heq]
  · rename_i hne
    exact List.filter_eq_nil_iff.mpr fun happening hmem => by simp [howner happening hmem, hne]

theorem told_launch {store : σ} {course : Course} {journal : Journal}
    (hnew : journal.entries = []) (player : String) :
    (launch store course (some journal)).told player = [] := by
  simp [told, happenings, launch, hnew]

theorem recording_launch {store : σ} {course : Course} {journal : Journal}
    (hopen : journal.blocked = false) : (launch store course (some journal)).Recording :=
  ⟨journal, rfl, hopen⟩

variable [RecordStore σ]

/-- The reports of a run on the decisions of one player that have left a durable record, or of those
that have left one that only stands in. -/
def reportsWhile (durable : Bool) (player : String) (engine : Engine σ) :
    List Operation → List DecisionReport
  | [] => []
  | operation :: rest =>
      (if (engine.step operation).isDurable player = durable then
        reportsOf player engine [operation] else []) ++
          reportsWhile durable player (engine.step operation) rest

theorem sublist_reportsWhile (durable : Bool) (player : String) (engine : Engine σ)
    (operations : List Operation) :
    (reportsWhile durable player engine operations).Sublist
      (reportsOf player engine operations) := by
  induction operations generalizing engine with
  | nil => exact .slnil
  | cons operation rest ih =>
      rw [reportsOf_cons, reportsWhile]
      refine .append ?_ (ih (engine.step operation))
      split
      · exact .refl _
      · exact List.nil_sublist _

theorem perm_reportsOf (player : String) (engine : Engine σ) (operations : List Operation) :
    (reportsOf player engine operations).Perm
      (reportsWhile true player engine operations ++
        reportsWhile false player engine operations) := by
  induction operations generalizing engine with
  | nil => exact .nil
  | cons operation rest ih =>
      have hrest := (ih (engine.step operation)).append_left (reportsOf player engine [operation])
      rw [reportsOf_cons, reportsWhile, reportsWhile]
      cases (engine.step operation).isDurable player with
      | true => exact hrest.trans (.of_eq (List.append_assoc _ _ _).symm)
      | false => exact hrest.trans (List.perm_append_comm_assoc _ _ _)

/-- Only decisions and onboarding tell anything. -/
theorem journal_step {engine : Engine σ} {operation : Operation}
    (hgoes : operation.restarts? = none) (hbrings : ∀ player, ¬ operation.brings player) :
    (engine.step operation).journal = engine.journal := by
  have hprogress (player : String) (now : Instant) :
      (engine.progress player now).2.journal = engine.journal := by
    rcases engine.snd_progress player now with hsame | hfetched
    · rw [hsame]
    · rw [hfetched]
      rfl
  cases operation with
  | decide session decision live now => exact absurd rfl (hbrings decision.player)
  | onboard player experience now => exact absurd rfl (hbrings player)
  | startSession session owner now =>
      simp only [step, startSession]
      split <;> rfl
  | endSession session now => exact engine.journal_endSession session now
  | noteSurfaced session skill hand =>
      simp only [step, noteSurfaced]
      split <;> rfl
  | progress player now => exact hprogress player now
  | coachingMode player skill now =>
      have hasked := hprogress player now
      simp only [step, coachingMode]
      split
      · rfl
      · dsimp only
        split <;> exact hasked
  | skillSummaries player now => exact hprogress player now
  | restart course journal => cases hgoes

end Told

variable {σ : Type} [RecordStore σ] [LawfulStore σ] {engine : Engine (TracedStore σ)}
  {player : String}

variable (engine) in
theorem isDurable_decide (session : String) (decision : Decision) (live : LiveAction)
    (now : Instant) :
    (engine.decide session decision live now).2.isDurable decision.player =
      (engine.startTurn session decision live now).slot.durable := by
  have hcached : (engine.decide session decision live now).2.slot? decision.player =
      some (engine.endTurn session decision live now).slot :=
    congrArg Desk.cached (engine.desk_decide session decision live now)
  rw [isDurable, hcached, Option.any_some]
  exact (engine.startTurn session decision live now).durable_foldl_judge session live
    (decision.situation (some live)) now _

theorem lasts_of_durable (hdurable : engine.isDurable player) : (engine.desk player).Lasts :=
  .inr (isDurable_iff.mp hdurable)

theorem opened_of_lasts (hlasts : (engine.desk player).Lasts) (operation : Operation) :
    engine.opened player operation = [] := by
  by_cases hbrings : operation.brings player
  · rcases operation.brings_cases hbrings with
      ⟨session, decision, live, now, rfl, -⟩ | ⟨experience, now, rfl⟩
    · rfl
    · have honboards := engine.desk_onboard player experience now
      rw [opened_onboard]
      generalize (engine.onboard player experience now).2.desk player = after at honboards ⊢
      generalize (engine.onboard player experience now).1 = answer at honboards ⊢
      cases honboards with
      | known => rfl
      | refused => rfl
      | declined => rfl
      | started hcached hstored honboard =>
          rcases hlasts with hlasting | ⟨record, hother⟩
          · exact absurd hstored hlasting
          · cases hcached.symm.trans hother
  · exact engine.opened_of_not_brings hbrings

theorem Keyed.startedWith_of_lasts (hkeyed : engine.Keyed) {operations : List Operation}
    (hgoes : ∀ operation ∈ operations, operation.restarts? = none)
    (hlasts : (engine.desk player).Lasts) : startedWith player engine operations = [] := by
  induction operations generalizing engine with
  | nil => rfl
  | cons operation rest ih =>
      obtain ⟨hfirst, hrest⟩ := List.forall_mem_cons.mp hgoes
      have hstill := (hkeyed.moves_step hfirst player).keeps (fun _ _ hmove => hmove.lasts) hlasts
      rw [startedWith, opened_of_lasts hlasts, List.nil_append]
      exact ih (hkeyed.step operation) hrest hstill

/-! ### What the journal takes in -/

theorem Recording.step (hrecording : engine.Recording) {operation : Operation}
    (hgoes : operation.restarts? = none) : (engine.step operation).Recording := by
  by_cases hbrings : ∃ owner, operation.brings owner
  · obtain ⟨owner, hbrings⟩ := hbrings
    rcases operation.brings_cases hbrings with
      ⟨session, decision, live, now, rfl, -⟩ | ⟨experience, now, rfl⟩
    · exact ((tellsAt_decide session decision live now).tells hrecording).1
    · rcases engine.tellsAt_onboard owner experience now with
        ⟨-, htells⟩ | ⟨record, rows, -, -, -, htells⟩
      · exact (htells.tells hrecording).1
      · exact (htells.tells hrecording).1
  · obtain ⟨journal, hsome, hopen⟩ := hrecording
    exact ⟨journal, (journal_step hgoes fun owner howner => hbrings ⟨owner, howner⟩).trans hsome,
      hopen⟩

theorem Keyed.told_decide (hkeyed : engine.Keyed) (hrecording : engine.Recording) (session : String)
    (decision : Decision) (live : LiveAction) (now : Instant) (player : String) :
    (engine.decide session decision live now).2.told player = engine.told player ++
      if decision.player = player ∧ (engine.startTurn session decision live now).slot.durable then
        engine.decisionHappenings session decision live now else [] := by
  have howner : ∀ happening ∈
      (if (engine.startTurn session decision live now).slot.durable then
        engine.decisionHappenings session decision live now else []),
      happening.player = decision.player := by
    intro happening hmem
    split at hmem
    · exact player_of_mem_decisionHappenings (hkeyed decision.player) hmem
    · exact absurd hmem List.not_mem_nil
  rw [(tellsAt_decide session decision live now).tells.told_eq hrecording _ howner, ite_and]

/-- Only what brings a record of a player tells anything of that player. -/
theorem Keyed.told_step_of_not_brings (hkeyed : engine.Keyed) (hrecording : engine.Recording)
    {operation : Operation} (hgoes : operation.restarts? = none)
    (hbrings : ¬ operation.brings player) :
    (engine.step operation).told player = engine.told player := by
  by_cases hothers : ∃ owner, operation.brings owner
  · obtain ⟨owner, howner⟩ := hothers
    rcases operation.brings_cases howner with
      ⟨session, decision, live, now, rfl, rfl⟩ | ⟨experience, now, rfl⟩
    · have hne : decision.player ≠ player := hbrings
      rw [Engine.step, hkeyed.told_decide hrecording, if_neg fun hboth => hne hboth.1,
        List.append_nil]
    · have hne : owner ≠ player := hbrings
      rcases engine.tellsAt_onboard owner experience now with
        ⟨-, htells⟩ | ⟨record, rows, -, -, -, htells⟩
      · rw [Engine.step, htells.tells.told_eq hrecording owner (by simp), if_neg hne,
          List.append_nil]
      · rw [Engine.step, htells.tells.told_eq hrecording owner ?_, if_neg hne,
          List.append_nil]
        exact fun _ => player_of_mem_onboardHappenings
  · unfold told happenings
    rw [journal_step hgoes fun owner howner => hothers ⟨owner, howner⟩]

/-- What the journal takes in of a player with an operation: the start, if it is one, and what is
reported, if the record is durable then. -/
theorem Keyed.changes_told_step (hkeyed : engine.Keyed) (hrecording : engine.Recording)
    {operation : Operation} (hgoes : operation.restarts? = none) (player : String) :
    .ofHappenings ((engine.step operation).told player) =
      Changes.ofHappenings (engine.told player) ++
        { unlocked := engine.opened player operation } ++
        .ofReports (reportsWhile true player engine [operation]) := by
  by_cases hbrings : operation.brings player
  · rcases operation.brings_cases hbrings with
      ⟨session, decision, live, now, rfl, rfl⟩ | ⟨experience, now, rfl⟩
    · have hdurable := engine.isDurable_decide session decision live now
      have hchanges := engine.changes_decide session decision live now
      have hreports := reportsOf_cons_decide engine decision.player session decision live now []
      rw [if_pos rfl] at hreports
      rw [Engine.step, hkeyed.told_decide hrecording, Changes.ofHappenings_append]
      simp only [reportsWhile, Engine.step, hdurable, hreports, true_and]
      cases hslot : (engine.startTurn session decision live now).slot.durable with
      | false => simp [opened, Changes.ofReports]
      | true =>
          rw [if_pos rfl, if_pos rfl, ← hchanges]
          simp [opened, reportsOf, Changes.ofReports, DecisionReport.changes]
    · have hreports : reportsWhile true player engine [.onboard player experience now] = [] := by
        simp [reportsWhile, reportsOf, report?]
      rw [hreports]
      rcases engine.tellsAt_onboard player experience now with
        ⟨hfailed, htells⟩ | ⟨record, rows, -, hdone, hcached, htells⟩
      · rw [Engine.step, htells.tells.told_eq hrecording player (by simp), ite_self,
          List.append_nil, opened_onboard, hfailed]
        simp [Changes.ofReports]
      · have howner : ∀ happening ∈ onboardHappenings player experience record rows,
            happening.player = player := fun _ => player_of_mem_onboardHappenings
        have hopened : engine.opened player (.onboard player experience now) =
            record.openGates := by
          rw [opened_onboard, hdone, show Desk.cached _ = _ from hcached]
          rfl
        rw [Engine.step, htells.tells.told_eq hrecording player howner, if_pos rfl,
          Changes.ofHappenings_append, Changes.ofHappenings_onboard, hopened]
        simp [Changes.ofReports]
  · have hreports : reportsOf player engine [operation] = [] :=
      reportsOf_cons_of_decisionOf? engine (Operation.decisionOf?_of_not_brings hbrings) []
    rw [hkeyed.told_step_of_not_brings hrecording hgoes hbrings,
      engine.opened_of_not_brings hbrings]
    simp [reportsWhile, hreports, Changes.ofReports]

/-- On a journal that works, the start of a player comes first, and then everything that decisions
have reported that have left a durable record. -/
theorem Keyed.changes_told_run (hkeyed : engine.Keyed) (hrecording : engine.Recording)
    {operations : List Operation} (hgoes : ∀ operation ∈ operations, operation.restarts? = none)
    (player : String) :
    .ofHappenings ((engine.run operations).told player) =
      Changes.ofHappenings (engine.told player) ++
        { unlocked := startedWith player engine operations } ++
        .ofReports (reportsWhile true player engine operations) := by
  induction operations generalizing engine with
  | nil => simp [startedWith, reportsWhile, Changes.ofReports]
  | cons operation rest ih =>
      obtain ⟨hfirst, hrest⟩ := List.forall_mem_cons.mp hgoes
      have hstep := hkeyed.changes_told_step hrecording hfirst player
      have hlater := ih (hkeyed.step operation) (hrecording.step hfirst) hrest
      rw [run_cons, hlater, hstep, startedWith]
      by_cases hdurable : (engine.step operation).isDurable player = true
      · -- Who has a durable record is not onboarded any more.
        have hnone := (hkeyed.step operation).startedWith_of_lasts hrest (lasts_of_durable hdurable)
        simp [hnone, reportsWhile, hdurable, Changes.ofReports, Changes.append_def]
      · simp [reportsWhile, hdurable, Changes.ofReports, Changes.append_def]

/-! ### New players -/

/-- On a new journal that works, over a store that was empty, whatever else fails, the journal says
of a player where onboarding started, and what was reported of every decision that left a durable
record, and nothing else. So a gate that is open in a durable record is told, unless it was opened
while the record was a stand-in, and all moves that were reported are told exactly if no skill moved
in that time. -/
theorem journal_tells_durable_changes (store : σ) (hempty : ∀ player, held store player = none)
    (course : Course) (journal : Journal) (hopen : journal.blocked = false)
    (hnew : journal.entries = []) (operations : List Operation)
    (hgoes : ∀ operation ∈ operations, operation.restarts? = none) (player : String) :
    let start := launch (TracedStore.watch store) course (some journal)
    let told := (start.run operations).told player
    let reports := reportsOf player start operations
    let kept := reportsWhile true player start operations
    let missed := reportsWhile false player start operations
    (told.filterMap Happening.transition? = kept.flatMap DecisionReport.transitions ∧
      told.filterMap Happening.gate? =
        startedWith player start operations ++ kept.flatMap DecisionReport.unlocked ∧
      told.filterMap Happening.backfill? = kept.flatMap DecisionReport.backfilled) ∧
    (∀ record gate, (start.run operations).slot? player = some ⟨record, true⟩ →
      record.isUnlocked gate = true →
      gate ∈ told.filterMap Happening.gate? ∨ ∃ report ∈ missed, gate ∈ report.unlocked) ∧
    ((reports.flatMap DecisionReport.transitions).Sublist (told.filterMap Happening.transition?) ↔
      ∀ report ∈ missed, report.transitions = []) := by
  intro start told reports kept missed
  have hkeyed : start.Keyed := keyed_launch_of_empty hempty course (some journal)
  have hchanges := hkeyed.changes_told_run (recording_launch hopen) hgoes player
  rw [told_launch hnew, Changes.ofHappenings_nil, Changes.empty_append] at hchanges
  have htransitions : told.filterMap Happening.transition? =
      kept.flatMap DecisionReport.transitions := congrArg Changes.transitions hchanges
  have hgates : told.filterMap Happening.gate? =
      startedWith player start operations ++ kept.flatMap DecisionReport.unlocked :=
    congrArg Changes.unlocked hchanges
  have hperm : reports.Perm (kept ++ missed) := perm_reportsOf player start operations
  refine ⟨⟨htransitions, hgates, congrArg Changes.backfilled hchanges⟩, ?_, ?_⟩
  · intro record gate hcached hgate
    have hstart : (start.desk player).OpensOnly [] :=
      all_launch (hempty player) course (some journal) _
    have hopened := (hkeyed.opensOnly_run hgoes hstart).cached _ hcached gate hgate
    rw [List.nil_append] at hopened
    rw [hgates]
    rcases List.mem_append.mp hopened with hstarted | hreported
    · exact .inl (List.mem_append_left _ hstarted)
    · obtain ⟨report, hmem, hin⟩ := List.mem_flatMap.mp hreported
      rcases List.mem_append.mp (hperm.mem_iff.mp hmem) with hkept | hmissed
      · exact .inl (List.mem_append_right _ (List.mem_flatMap.mpr ⟨report, hkept, hin⟩))
      · exact .inr ⟨report, hmissed, hin⟩
  · have hlength : (reports.flatMap DecisionReport.transitions).length =
        (kept.flatMap DecisionReport.transitions).length +
          (missed.flatMap DecisionReport.transitions).length := by
      rw [(hperm.flatMap_right _).length_eq, List.flatMap_append, List.length_append]
    have hkept : (kept.flatMap DecisionReport.transitions).Sublist
        (reports.flatMap DecisionReport.transitions) :=
      (sublist_reportsWhile true player start operations).flatMap _
    rw [htransitions, ← List.flatMap_eq_nil_iff]
    constructor
    · intro hall
      have hle := hall.length_le
      exact List.eq_nil_of_length_eq_zero (by omega)
    · intro hnone
      rw [hkept.eq_of_length (by rw [hlength, hnone]; rfl)]

/-- What six hands have changed while the record of a player could not be read is not told any more:
the first gate, and the move of a skill. -/
theorem outage_leaves_changes_untold :
    let store : FaultyStore MemoryStore := { inner := .empty, readFails := fun read => read < 6 }
    let fold : Operation :=
      .decide "s" { player := "ana", hand := 1, street := .preflop, flags := { trash := true } }
        { action := .fold } .epoch
    let operations := List.replicate 7 fold
    let journal : Journal := { path := "events.log" }
    (∃ record, (reached store {} (some journal) operations).slot? "ana" = some ⟨record, true⟩ ∧
      record.isUnlocked 1 = true) ∧
    1 ∉ ((reached store {} (some journal) operations).told "ana").filterMap Happening.gate? ∧
    ¬ ((reportsOf "ana" (launch (TracedStore.watch store) {} (some journal)) operations).flatMap
        DecisionReport.transitions).Sublist
      (((reached store {} (some journal) operations).told "ana").filterMap
        Happening.transition?) := by
  intro store fold operations journal
  have hslot : ((reached store {} (some journal) operations).slot? "ana").any
      (fun slot => slot.durable && slot.record.isUnlocked 1) = true := by decide +kernel
  have hreported : ((reportsOf "ana" (launch (TracedStore.watch store) {} (some journal))
      operations).flatMap DecisionReport.transitions).length = 2 := by decide +kernel
  have htold : (((reached store {} (some journal) operations).told "ana").filterMap
      Happening.transition?).length = 1 := by decide +kernel
  refine ⟨?_, by decide +kernel, fun hall => ?_⟩
  · obtain ⟨⟨record, durable⟩, hcached, hboth⟩ := Option.any_eq_true _ _ |>.mp hslot
    obtain ⟨rfl, hopen⟩ := Bool.and_eq_true_iff.mp hboth
    exact ⟨record, hcached, hopen⟩
  · have hle := hall.length_le
    omega

/-- The journal has the start of a player and what is reported once the first read has worked. -/
theorem journal_tells_durable_changes_after_outage :
    let store : FaultyStore MemoryStore := { inner := .empty, readFails := fun read => read < 6 }
    let fold : Operation :=
      .decide "s" { player := "ana", hand := 1, street := .preflop, flags := { trash := true } }
        { action := .fold } .epoch
    let operations := List.replicate 7 fold
    let journal : Journal := { path := "events.log" }
    ((reached store {} (some journal) operations).told "ana").filterMap Happening.transition? =
        (reportsWhile true "ana" (launch (TracedStore.watch store) {} (some journal))
          operations).flatMap DecisionReport.transitions ∧
      (reportsWhile true "ana" (launch (TracedStore.watch store) {} (some journal))
        operations).length = 1 ∧
      ∃ report ∈ reportsWhile false "ana" (launch (TracedStore.watch store) {} (some journal))
        operations, 1 ∈ report.unlocked := by
  intro store fold operations journal
  have hgoes : ∀ operation ∈ operations, operation.restarts? = none := by decide
  have hslot : ((reached store {} (some journal) operations).slot? "ana").any
      (fun slot => slot.durable && slot.record.isUnlocked 1) = true := by decide +kernel
  have huntold : 1 ∉ ((reached store {} (some journal) operations).told "ana").filterMap
      Happening.gate? := by decide +kernel
  obtain ⟨⟨record, durable⟩, hcached, hboth⟩ := Option.any_eq_true _ _ |>.mp hslot
  obtain ⟨rfl, hopen⟩ := Bool.and_eq_true_iff.mp hboth
  obtain ⟨htold, hgates, -⟩ := journal_tells_durable_changes store MemoryStore.find?_empty {}
    journal rfl rfl operations hgoes "ana"
  exact ⟨htold.1, by decide +kernel, (hgates record 1 hcached hopen).resolve_left huntold⟩

end Engine

end PokerCoach
