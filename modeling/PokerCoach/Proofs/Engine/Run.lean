import PokerCoach.Proofs.Engine.Move

/-!
# Runs are moves on desks

Every operation but a restart makes moves on each desk, and a restart clears it. So what holds of an
empty desk and is kept by every move holds of every desk in every run.
-/

namespace PokerCoach

open Std Time

namespace Desk

theorem Move.keyed {curriculum : Curriculum} {player : String} {desk after : Desk}
    (hmove : desk.Move curriculum player after) (hkeyed : desk.Keyed player) :
    after.Keyed player := by
  have hall := keyed_iff_all.mp hkeyed
  rw [keyed_iff_all]
  cases hmove with
  | read worked => exact hall.read player worked
  | load now hloads => exact keyed_iff_all.mp (hloads.keyed hkeyed)
  | learn slot skill outcome marginalCredit now worked hcached hskill happlicable hcomes =>
      refine hall.save ?_ worked
      rw [(slot.record.learn_extends curriculum now skill outcome marginalCredit).player]
      exact hkeyed.cached slot hcached
  | release hreleases => exact hreleases.all hall
  | onboard experience now hcached hstored honboard =>
      have hplayer := PlayerRecord.player_of_onboard? _ curriculum now honboard
      exact ((hall.read player true).write hplayer true).hold hplayer
  | decline experience now hcached hstored honboard =>
      have hplayer := PlayerRecord.player_of_onboard? _ curriculum now honboard
      exact (hall.read player true).write hplayer false

theorem Moves.keeps {curriculum : Curriculum} {player : String} {desk after : Desk}
    (hmoves : desk.Moves curriculum player after) {holds : Desk → Prop}
    (hmove : ∀ desk after, desk.Move curriculum player after → holds desk → holds after)
    (hdesk : holds desk) : holds after := by
  induction hmoves with
  | refl => exact hdesk
  | tail _ hmoved ih => exact hmove _ _ hmoved ih

theorem Moves.keyed {curriculum : Curriculum} {player : String} {desk after : Desk}
    (hmoves : desk.Moves curriculum player after) (hkeyed : desk.Keyed player) :
    after.Keyed player :=
  hmoves.keeps (fun _ _ hmove => hmove.keyed) hkeyed

/-- What an onboarding may find on the desk of its player, its answer, and the desk that is left. -/
inductive Onboards (curriculum : Curriculum) (player : String) (experience : Experience)
    (now : Instant) (desk : Desk) : Except Error (List Backfill) → Desk → Prop
  | known (error : Error) : Onboards curriculum player experience now desk (.error error) desk
  | refused (error : Error) (worked : Bool) :
      Onboards curriculum player experience now desk (.error error) (desk.read player worked)
  | declined {record : PlayerRecord} {rows : List Backfill} (error : Error)
      (hcached : desk.cached = none) (hstored : desk.stored = none)
      (honboard : (PlayerRecord.fresh player now).onboard? curriculum experience now =
        some (record, rows)) :
      Onboards curriculum player experience now desk (.error error)
        ((desk.read player true).write record false)
  | started {record : PlayerRecord} {rows : List Backfill} (hcached : desk.cached = none)
      (hstored : desk.stored = none)
      (honboard : (PlayerRecord.fresh player now).onboard? curriculum experience now =
        some (record, rows)) :
      Onboards curriculum player experience now desk (.ok rows)
        (((desk.read player true).write record true).hold ⟨record, true⟩)

end Desk

namespace Engine

variable {σ : Type} [RecordStore σ] [LawfulStore σ] (engine : Engine (TracedStore σ))

/-- Every desk holds records of its own player only. -/
def Keyed : Prop :=
  ∀ player, (engine.desk player).Keyed player

variable {engine} in
theorem comesUp_of_mem_triggered {session : String} {decision : Decision} {live : LiveAction}
    {now : Instant} {skill : String}
    (hmem : skill ∈ (engine.startTurn session decision live now).report.triggered) :
    (engine.startTurn session decision live now).slot.record.ComesUp engine.curriculum skill := by
  have hcurriculum : (engine.loadFor session decision now).2.curriculum = engine.curriculum :=
    congrArg Course.curriculum (engine.course_loadFor session decision now)
  have hcandidate := (List.mem_filter.mp (show skill ∈ RuleBook.classify _ _ _ from hmem)).1
  obtain ⟨candidate, hfilter, hid⟩ := List.mem_map.mp hcandidate
  obtain ⟨hskill, hopen⟩ := List.mem_filter.mp hfilter
  simp only [Bool.and_eq_true] at hopen
  refine ⟨candidate, ?_, hid, hopen.1⟩
  rw [← hcurriculum]
  exact hskill

theorem desk_decide (session : String) (decision : Decision) (live : LiveAction) (now : Instant) :
    (engine.decide session decision live now).2.desk decision.player =
      (engine.endTurn session decision live now).desk decision.player :=
  (desk_cache _ decision.player _ decision.player).trans (if_pos rfl)

variable {engine}

theorem cached_decide (session : String) (decision : Decision) (live : LiveAction)
    (now : Instant) :
    ((engine.decide session decision live now).2.desk decision.player).cached =
      some (engine.endTurn session decision live now).slot := by
  rw [desk_decide]
  rfl

section Decision

variable {decision : Decision}
  (hkeyed : (engine.desk decision.player).Keyed decision.player)
include hkeyed

theorem loads_loadFor (session : String) (now : Instant) :
    (engine.desk decision.player).Loads engine.curriculum decision.player now
      (engine.loadFor session decision now).1
      ((engine.loadFor session decision now).2.desk decision.player) := by
  have hloads := (engine.ensureSession session decision.player now).loads_load
    (by rwa [desk_ensureSession]) now
  have hcurriculum :
      (engine.ensureSession session decision.player now).curriculum = engine.curriculum :=
    congrArg Course.curriculum (engine.course_ensureSession session decision.player now)
  rwa [desk_ensureSession, hcurriculum] at hloads

theorem desk_startTurn (session : String) (live : LiveAction) (now : Instant) :
    (engine.startTurn session decision live now).desk decision.player =
      (engine.loadFor session decision now).2.desk decision.player :=
  Desk.hold_eq_self (loads_loadFor hkeyed session now).cached_eq

theorem player_startTurn (session : String) (live : LiveAction) (now : Instant) :
    (engine.startTurn session decision live now).slot.record.player = decision.player := by
  have hloads := loads_loadFor hkeyed session now
  exact (hloads.keyed hkeyed).cached _ hloads.cached_eq

theorem moves_evaluations (session : String) (live : LiveAction) (now : Instant) :
    Desk.Moves engine.curriculum decision.player
      ((engine.loadFor session decision now).2.desk decision.player)
      ((engine.decide session decision live now).2.desk decision.player) := by
  have hcurriculum : (engine.startTurn session decision live now).engine.curriculum =
      engine.curriculum :=
    congrArg Course.curriculum (engine.course_startTurn session decision live now)
  have hfold := (engine.startTurn session decision live now).moves_foldl_judge session live
    (decision.situation (some live)) now (player_startTurn hkeyed session live now)
    (fun skill hmem => hcurriculum ▸ comesUp_of_mem_triggered hmem)
  rw [hcurriculum, desk_startTurn hkeyed] at hfold
  rw [desk_decide]
  exact hfold

theorem moves_decide (session : String) (live : LiveAction) (now : Instant) :
    Desk.Moves engine.curriculum decision.player (engine.desk decision.player)
      ((engine.decide session decision live now).2.desk decision.player) :=
  .head (.load now (loads_loadFor hkeyed session now)) (moves_evaluations hkeyed session live now)

omit hkeyed in
/-- A decision on a record of another player touches no desk but those of its own player and of that
record. -/
theorem desk_decide_of_loaded_ne {session : String} {now : Instant} {player : String}
    (hall : (engine.desk decision.player).All fun record => record.player ≠ player)
    (hloaded : (engine.loadFor session decision now).1.slot.record.player ≠ player)
    (hne : decision.player ≠ player) (live : LiveAction) :
    (engine.decide session decision live now).2.desk player = engine.desk player := by
  have hload : (engine.loadFor session decision now).2.desk player = engine.desk player := by
    rw [loadFor, desk_load_of_ne _ _ now hne, desk_ensureSession]
    rwa [desk_ensureSession]
  rw [decide_eq, desk_cache, if_neg hne, endTurn, turnAfter, Turn.desk_foldl_judge_of_ne]
  · exact hload
  · exact hloaded

theorem desk_decide_of_ne (session : String) (live : LiveAction) (now : Instant) {player : String}
    (hne : decision.player ≠ player) :
    (engine.decide session decision live now).2.desk player = engine.desk player := by
  refine desk_decide_of_loaded_ne (hkeyed.all_ne hne) ?_ hne live
  exact fun hplayer => hne ((player_startTurn hkeyed session live now).symm.trans hplayer)

end Decision

/-! ### The moves of each operation -/

/-- How an onboarding can go: its answer, and the engine afterwards. -/
inductive Onboards {σ : Type} [RecordStore σ] (engine : Engine σ) (player : String)
    (experience : Experience) (now : Instant) : Except Error (List Backfill) × Engine σ → Prop
  | known (hcached : (engine.slot? player).isSome = true) :
      Onboards engine player experience now (.error (.alreadyHasProgress player), engine)
  | refused (error : Error) (hcached : engine.slot? player = none) :
      Onboards engine player experience now (.error error, (engine.fetch player).2)
  | declined {record : PlayerRecord} {rows : List Backfill} (error : Error)
      (hcached : engine.slot? player = none) (hfound : (engine.fetch player).1 = .ok none)
      (honboard : (PlayerRecord.fresh player now).onboard? engine.curriculum experience now =
        some (record, rows))
      (hwrite : ((engine.fetch player).2.write record now).1 = .error error) :
      Onboards engine player experience now
        (.error error, ((engine.fetch player).2.write record now).2)
  | started {record : PlayerRecord} {rows : List Backfill}
      (hcached : engine.slot? player = none) (hfound : (engine.fetch player).1 = .ok none)
      (honboard : (PlayerRecord.fresh player now).onboard? engine.curriculum experience now =
        some (record, rows))
      (hwrite : ((engine.fetch player).2.write record now).1 = .ok ()) :
      Onboards engine player experience now
        (.ok rows, (((engine.fetch player).2.write record now).2.emitAll
          (onboardHappenings player experience record rows) now).cache player ⟨record, true⟩)

theorem onboards_onboard {σ : Type} [RecordStore σ] (engine : Engine σ) (player : String)
    (experience : Experience) (now : Instant) :
    engine.Onboards player experience now (engine.onboard player experience now) := by
  unfold onboard
  split
  · rename_i hslot
    exact .known hslot
  · rename_i hslot
    have hcached : engine.slot? player = none := Option.not_isSome_iff_eq_none.mp hslot
    dsimp only
    split
    · exact .refused _ hcached
    · exact .refused _ hcached
    · rename_i hfound
      split
      · exact .refused _ hcached
      · rename_i record rows honboard
        split
        · rename_i error hwrite
          exact .declined error hcached hfound honboard hwrite
        · rename_i hwrite
          exact .started hcached hfound honboard hwrite

variable (engine) in
theorem desk_onboard (player : String) (experience : Experience) (now : Instant) :
    (engine.desk player).Onboards engine.curriculum player experience now
      (engine.onboard player experience now).1
      ((engine.onboard player experience now).2.desk player) := by
  have hfetched := (engine.desk_fetch player player).trans (if_pos rfl)
  -- Nothing is stored where nothing is found, and the read has worked.
  have hnew (hfound : (engine.fetch player).1 = .ok none) : (engine.desk player).stored = none ∧
      (engine.fetch player).2.desk player = (engine.desk player).read player true := by
    rw [hfound] at hfetched
    rcases engine.fetch_eq player with hstored | ⟨error, herror⟩
    · exact ⟨Except.ok.inj (hstored.symm.trans hfound), hfetched⟩
    · cases herror.symm.trans hfound
  have hwritten {record : PlayerRecord} {rows : List Backfill}
      (honboard : (PlayerRecord.fresh player now).onboard? engine.curriculum experience now =
        some (record, rows)) :=
    ((engine.fetch player).2.desk_write record now player).trans
      (if_pos (PlayerRecord.player_of_onboard? _ _ now honboard))
  have honboards := engine.onboards_onboard player experience now
  generalize engine.onboard player experience now = result at honboards ⊢
  cases honboards with
  | known => exact .known _
  | refused error => exact hfetched ▸ .refused error _
  | declined error hcached hfound honboard hwrite =>
      obtain ⟨hstored, hread⟩ := hnew hfound
      have hdesk := hwritten honboard
      rw [hwrite, hread] at hdesk
      exact hdesk ▸ .declined error hcached hstored honboard
  | started hcached hfound honboard hwrite =>
      obtain ⟨hstored, hread⟩ := hnew hfound
      have hdesk := hwritten honboard
      rw [hwrite, hread] at hdesk
      rw [desk_cache, if_pos rfl, desk_emitAll, hdesk]
      exact .started hcached hstored honboard

theorem moves_onboard (player : String) (experience : Experience) (now : Instant) :
    Desk.Moves engine.curriculum player (engine.desk player)
      ((engine.onboard player experience now).2.desk player) := by
  have honboards := engine.desk_onboard player experience now
  generalize (engine.onboard player experience now).2.desk player = after at honboards ⊢
  generalize (engine.onboard player experience now).1 = answer at honboards
  cases honboards with
  | known => exact .refl
  | refused error worked => exact .single (.read worked)
  | declined error hcached hstored honboard =>
      exact .single (.decline experience now hcached hstored honboard)
  | started hcached hstored honboard =>
      exact .single (.onboard experience now hcached hstored honboard)

theorem desk_onboard_of_ne {player other : String} (hne : player ≠ other) (experience : Experience)
    (now : Instant) : (engine.onboard player experience now).2.desk other = engine.desk other := by
  have hfetched := (engine.desk_fetch player other).trans (if_neg hne)
  have hwritten {record : PlayerRecord} {rows : List Backfill}
      (honboard : (PlayerRecord.fresh player now).onboard? engine.curriculum experience now =
        some (record, rows)) :
      ((engine.fetch player).2.write record now).2.desk other = engine.desk other := by
    have howner : record.player = player := PlayerRecord.player_of_onboard? _ _ now honboard
    rw [desk_write, if_neg (howner ▸ hne), hfetched]
  have honboards := engine.onboards_onboard player experience now
  generalize engine.onboard player experience now = result at honboards ⊢
  cases honboards with
  | known => rfl
  | refused error => exact hfetched
  | declined error hcached hfound honboard hwrite => exact hwritten honboard
  | started hcached hfound honboard hwrite =>
      rw [desk_cache, if_neg hne, desk_emitAll, hwritten honboard]

theorem Keyed.desk_endSession (hkeyed : engine.Keyed) (session : String) (now : Instant)
    (player : String) :
    (engine.endSession session now).2.desk player = engine.desk player ∨
      (engine.desk player).Releases ((engine.endSession session now).2.desk player) := by
  have hclosed : Keyed { engine with sessions := engine.sessions.erase session } := hkeyed
  unfold endSession
  split
  · exact .inl rfl
  · rename_i closed _
    dsimp only
    split
    · exact .inl rfl
    · by_cases heq : closed.owner = player
      · subst heq
        exact .inr (releases_release _ (hclosed closed.owner) now)
      · exact .inl (desk_release_of_ne _ (hclosed closed.owner) now heq)

theorem moves_fetch (player other : String) :
    Desk.Moves engine.curriculum other (engine.desk other)
      ((engine.fetch player).2.desk other) := by
  rw [desk_fetch]
  split
  · rename_i heq
    subst heq
    exact .single (.read _)
  · exact .refl

theorem snd_progress {σ : Type} [RecordStore σ] (engine : Engine σ) (player : String)
    (now : Instant) :
    (engine.progress player now).2 = engine ∨
      (engine.progress player now).2 = (engine.fetch player).2 := by
  unfold progress
  split
  · exact .inl rfl
  · right
    rcases engine.fetch player with ⟨_ | _ | _, fetched⟩ <;> rfl

theorem moves_progress (player : String) (now : Instant) (other : String) :
    Desk.Moves engine.curriculum other (engine.desk other)
      ((engine.progress player now).2.desk other) := by
  rcases engine.snd_progress player now with hsame | hfetched
  · rw [hsame]
  · rw [hfetched]
    exact moves_fetch player other

theorem desk_coachingMode (player skill : String) (now : Instant) (other : String) :
    (engine.coachingMode player skill now).2.desk other = engine.desk other ∨
      (engine.coachingMode player skill now).2.desk other =
        (engine.progress player now).2.desk other := by
  unfold coachingMode
  split
  · exact .inl rfl
  · right
    rcases engine.progress player now with ⟨_ | _, asked⟩ <;> rfl

theorem moves_coachingMode (player skill : String) (now : Instant) (other : String) :
    Desk.Moves engine.curriculum other (engine.desk other)
      ((engine.coachingMode player skill now).2.desk other) := by
  rcases engine.desk_coachingMode player skill now other with hsame | hasked
  · rw [hsame]
  · rw [hasked]
    exact moves_progress player now other

/-- What an operation does to a desk, if it is no restart. -/
theorem Keyed.moves_step (hkeyed : engine.Keyed) {operation : Operation}
    (hgoes : operation.restarts? = none)
    (player : String) :
    Desk.Moves engine.curriculum player (engine.desk player)
      ((engine.step operation).desk player) := by
  cases operation with
  | decide session decision live now =>
      by_cases heq : decision.player = player
      · subst heq
        exact moves_decide (hkeyed decision.player) session live now
      · rw [step, desk_decide_of_ne (hkeyed decision.player) session live now heq]
  | onboard newcomer experience now =>
      by_cases heq : newcomer = player
      · subst heq
        exact moves_onboard newcomer experience now
      · rw [step, desk_onboard_of_ne heq]
  | startSession session owner now =>
      simp only [step, startSession]
      split <;> exact .refl
  | endSession session now =>
      rcases hkeyed.desk_endSession session now player with hsame | hreleases
      · rw [step, hsame]
      · exact .single (.release hreleases)
  | noteSurfaced session skill hand =>
      simp only [step, noteSurfaced]
      split <;> exact .refl
  | progress asked now => exact moves_progress asked now player
  | coachingMode asked skill now => exact moves_coachingMode asked skill now player
  | skillSummaries asked now => exact moves_progress asked now player
  | restart course journal => cases hgoes

@[simp]
theorem desk_restart (course : Course) (journal : Option Journal) (player : String) :
    (engine.step (.restart course journal)).desk player = (engine.desk player).clear := by
  simp [step, launch, desk, Desk.clear, slot?]

end Engine

/-! ### The course -/

namespace Engine

section Course

variable {σ : Type} [RecordStore σ] (engine : Engine σ)

theorem course_write (record : PlayerRecord) (now : Instant) :
    (engine.write record now).2.course = engine.course := by
  obtain ⟨health, hwrite⟩ := engine.exists_write_eq record now
  simp [hwrite, course]

theorem course_onboard (player : String) (experience : Experience) (now : Instant) :
    (engine.onboard player experience now).2.course = engine.course := by
  have honboards := engine.onboards_onboard player experience now
  generalize engine.onboard player experience now = result at honboards ⊢
  cases honboards with
  | known => rfl
  | refused error => rfl
  | declined => exact course_write _ _ now
  | started => exact (course_emitAll _ _ now).trans (course_write _ _ now)

theorem course_progress (player : String) (now : Instant) :
    (engine.progress player now).2.course = engine.course := by
  unfold progress
  split
  · rfl
  · dsimp only
    split <;> rfl

theorem course_step {operation : Operation} (hgoes : operation.restarts? = none) :
    (engine.step operation).course = engine.course := by
  cases operation with
  | decide session decision live now => exact engine.course_decide session decision live now
  | onboard player experience now => exact engine.course_onboard player experience now
  | startSession session owner now =>
      simp only [step, startSession]
      split <;> rfl
  | endSession session now =>
      simp only [step, endSession]
      split
      · rfl
      · dsimp only
        split
        · rfl
        · exact course_release _ _ now
  | noteSurfaced session skill hand =>
      simp only [step, noteSurfaced]
      split <;> rfl
  | progress player now => exact engine.course_progress player now
  | coachingMode player skill now =>
      have hcourse := engine.course_progress player now
      simp only [step, coachingMode]
      split
      · rfl
      · dsimp only
        split <;> exact hcourse
  | skillSummaries player now => exact engine.course_progress player now
  | restart course journal => cases hgoes

theorem curriculum_step {operation : Operation} (hgoes : operation.restarts? = none) :
    (engine.step operation).curriculum = engine.curriculum :=
  congrArg Course.curriculum (engine.course_step hgoes)

theorem curriculum_run {operations : List Operation}
    (htaught : ∀ operation ∈ operations, ∀ other, operation.restarts? = some other →
      other.curriculum = engine.curriculum) :
    (engine.run operations).curriculum = engine.curriculum := by
  induction operations generalizing engine with
  | nil => rfl
  | cons operation rest ih =>
      have hstep : (engine.step operation).curriculum = engine.curriculum := by
        cases hrestarts : operation.restarts? with
        | none => exact engine.curriculum_step hrestarts
        | some course =>
            obtain ⟨journal, rfl⟩ := Operation.restarts?_eq_some hrestarts
            exact htaught _ List.mem_cons_self _ rfl
      rw [run_cons, ih, hstep]
      rw [hstep]
      exact fun other hmem => htaught other (List.mem_cons_of_mem operation hmem)

theorem reportsOf_cons_decide (player session : String) (decision : Decision) (live : LiveAction)
    (now : Instant) (rest : List Operation) :
    reportsOf player engine (.decide session decision live now :: rest) =
      (if decision.player = player then [(engine.decide session decision live now).1] else []) ++
        reportsOf player (engine.decide session decision live now).2 rest := by
  simp only [reportsOf, report?, Option.filter_some, player_decide, beq_iff_eq, step]
  split <;> rfl

theorem reportsOf_cons_of_decisionOf? {operation : Operation} {player : String}
    (hother : operation.decisionOf? player = none) (rest : List Operation) :
    reportsOf player engine (operation :: rest) =
      reportsOf player (engine.step operation) rest := by
  cases operation with
  | decide session decision live now =>
      have hne : decision.player ≠ player := by
        rintro rfl
        simp [Operation.decisionOf?] at hother
      rw [reportsOf_cons_decide, if_neg hne]
      rfl
  | _ => simp [reportsOf, report?]

end Course

/-! ### Whole runs -/

section Run

variable {σ : Type} [RecordStore σ] [LawfulStore σ] {engine : Engine (TracedStore σ)}

/-- The engine that a run reaches from a new one, with all that was asked of the store. -/
abbrev reached (store : σ) (course : Course) (journal : Option Journal)
    (operations : List Operation) : Engine (TracedStore σ) :=
  (launch (.watch store) course journal).run operations

@[simp]
theorem desk_launch (store : σ) (course : Course) (journal : Option Journal) (player : String) :
    (launch (.watch store) course journal).desk player = ⟨none, held store player, []⟩ := by
  simp only [desk, launch, slot?]
  congr 1

theorem keyed_launch {store : σ}
    (hstore : ∀ player record, held store player = some record → record.player = player)
    (course : Course) (journal : Option Journal) :
    (launch (.watch store) course journal).Keyed := by
  intro player
  rw [desk_launch]
  exact ⟨by rintro _ ⟨⟩, hstore player⟩

theorem player_of_held_empty {store : σ} (hempty : ∀ player, held store player = none)
    (player : String) (record : PlayerRecord) (hheld : held store player = some record) :
    record.player = player := by
  cases (hempty player).symm.trans hheld

theorem keyed_launch_of_empty {store : σ} (hempty : ∀ player, held store player = none)
    (course : Course) (journal : Option Journal) :
    (launch (.watch store) course journal).Keyed :=
  keyed_launch (player_of_held_empty hempty) course journal

theorem all_launch {store : σ} {player : String} (hnothing : held store player = none)
    (course : Course) (journal : Option Journal) (holds : PlayerRecord → Prop) :
    ((launch (.watch store) course journal).desk player).All holds := by
  rw [desk_launch, hnothing]
  exact ⟨by rintro _ ⟨⟩, by rintro _ ⟨⟩⟩

theorem Keyed.step (hkeyed : engine.Keyed) (operation : Operation) :
    (engine.step operation).Keyed := by
  intro player
  cases hrestarts : operation.restarts? with
  | none => exact (hkeyed.moves_step hrestarts player).keyed (hkeyed player)
  | some course =>
      obtain ⟨journal, rfl⟩ := Operation.restarts?_eq_some hrestarts
      rw [desk_restart]
      exact ⟨by rintro _ ⟨⟩, (hkeyed player).stored⟩

theorem Keyed.run (hkeyed : engine.Keyed) (operations : List Operation) :
    (engine.run operations).Keyed := by
  induction operations generalizing engine with
  | nil => exact hkeyed
  | cons operation rest ih => exact ih (hkeyed.step operation)

theorem Keyed.moves_run (hkeyed : engine.Keyed) {operations : List Operation}
    (hgoes : ∀ operation ∈ operations, operation.restarts? = none) (player : String) :
    Desk.Moves engine.curriculum player (engine.desk player)
      ((engine.run operations).desk player) := by
  induction operations generalizing engine with
  | nil => exact .refl
  | cons operation rest ih =>
      have hfirst := hgoes operation List.mem_cons_self
      have hrest := ih (hkeyed.step operation) fun other hmem =>
        hgoes other (List.mem_cons_of_mem operation hmem)
      rw [engine.curriculum_step hfirst] at hrest
      exact (hkeyed.moves_step hfirst player).trans hrest

/-- What every move under the courses of a run keeps, and clearing the desk keeps, the run keeps. -/
theorem Keyed.desk_run (hkeyed : engine.Keyed) (player : String) (holds : Desk → Prop)
    (taught : Curriculum → Prop)
    (hmove : ∀ curriculum desk after, taught curriculum → desk.Move curriculum player after →
      holds desk → holds after)
    (hclear : ∀ desk, holds desk → holds desk.clear) {operations : List Operation}
    (htaught : ∀ operation ∈ operations, ∀ course, operation.restarts? = some course →
      taught course.curriculum)
    (hcourse : taught engine.curriculum) (hdesk : holds (engine.desk player)) :
    holds ((engine.run operations).desk player) := by
  induction operations generalizing engine with
  | nil => exact hdesk
  | cons operation rest ih =>
      have hrest := fun other hmem => htaught other (List.mem_cons_of_mem operation hmem)
      have hfirst := htaught operation List.mem_cons_self
      cases hrestarts : operation.restarts? with
      | none =>
          have hcurriculum := engine.curriculum_step hrestarts
          exact ih (hkeyed.step operation) hrest (hcurriculum ▸ hcourse)
            ((hkeyed.moves_step hrestarts player).keeps (fun _ _ => hmove _ _ _ hcourse) hdesk)
      | some course =>
          obtain ⟨journal, rfl⟩ := Operation.restarts?_eq_some hrestarts
          refine ih (hkeyed.step _) hrest (hfirst course rfl) ?_
          rw [desk_restart]
          exact hclear _ hdesk

end Run

end Engine

end PokerCoach
