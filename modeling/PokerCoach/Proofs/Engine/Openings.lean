import PokerCoach.Proofs.Journal.Changes
import PokerCoach.Proofs.Engine.GateUnlocking
import PokerCoach.Proofs.Engine.Agreement

/-!
# Where open gates come from

A gate of a record is opened by onboarding, or by a decision that reports it. So of a player who was
new at the start of a run, every open gate has been told by an answer.
-/

namespace PokerCoach

open Std Time

namespace Loaded

theorem mem_unlocked_setUp {base : PlayerRecord} {curriculum : Curriculum} {now : Instant}
    {durable persisted : Bool} {gate : UInt32}
    (hopen : (base.setUp curriculum now).isUnlocked gate = true) :
    base.isUnlocked gate = true ∨
      gate ∈ (setUp base curriculum now durable persisted).unlocked := by
  simp only [PlayerRecord.setUp, PlayerRecord.isUnlocked_backfill,
    PlayerRecord.ensureEntryGate] at hopen
  split at hopen
  · exact .inl hopen
  · rename_i hlocked
    simp only [PlayerRecord.isUnlocked_touch, PlayerRecord.isUnlocked_unlock, Bool.or_eq_true,
      decide_eq_true_eq] at hopen
    rcases hopen with rfl | hopen
    · exact .inr (by simp [setUp, PlayerRecord.ensureEntryGate, hlocked])
    · exact .inl hopen

end Loaded

namespace Draft

/-- Every open gate of the record is reported, or one of those that were open before. -/
def Accounts (draft : Draft) (gates : List UInt32) : Prop :=
  ∀ gate, draft.record.isUnlocked gate = true → gate ∈ gates ++ draft.report.unlocked

theorem Accounts.advance {draft : Draft} {gates : List UInt32} (haccounts : draft.Accounts gates)
    (curriculum : Curriculum) (skill : String) (now : Instant) :
    (draft.advance curriculum skill now).Accounts gates := by
  intro gate hopen
  rw [record_advance, PlayerRecord.advance] at hopen
  rw [unlocked_advance, ← List.append_assoc, List.mem_append]
  cases hearned : draft.record.earnedGate? curriculum skill with
  | none =>
      rw [hearned] at hopen
      exact .inl (haccounts gate hopen)
  | some number =>
      simp only [hearned, PlayerRecord.isUnlocked_backfill, PlayerRecord.isUnlocked_touch,
        PlayerRecord.isUnlocked_unlock, Bool.or_eq_true, decide_eq_true_eq] at hopen
      rcases hopen with rfl | hopen
      · exact .inr List.mem_cons_self
      · exact .inl (haccounts gate hopen)

theorem Accounts.judge {draft : Draft} {gates : List UInt32} (haccounts : draft.Accounts gates)
    (course : Course) (live : LiveAction) (spot : Situation) (now : Instant) (skill : String) :
    (draft.judge course live spot now skill).Accounts gates := by
  rcases draft.judge_cases course live spot now skill with
    ⟨-, hjudge⟩ | ⟨definition, -, -, -, hjudge⟩
  · rw [hjudge]
    exact haccounts
  · rw [hjudge]
    have hpracticed : ((draft.note (course.rules.evaluate skill live spot)).practice definition
        (course.rules.evaluate skill live spot).outcome course.settings.marginalCredit now).Accounts
          gates := haccounts
    exact hpracticed.advance course.curriculum definition.id now

end Draft

namespace Desk

/-- No gates are open in the records on the desk but some. -/
def OpensOnly (desk : Desk) (gates : List UInt32) : Prop :=
  desk.All fun record => ∀ gate, record.isUnlocked gate = true → gate ∈ gates

variable {desk : Desk} {gates : List UInt32}

theorem OpensOnly.mono (honly : desk.OpensOnly gates) {more : List UInt32}
    (hsubset : gates ⊆ more) : desk.OpensOnly more where
  cached slot hslot gate hopen := hsubset (honly.cached slot hslot gate hopen)
  stored record hrecord gate hopen := hsubset (honly.stored record hrecord gate hopen)

theorem OpensOnly.basis (honly : desk.OpensOnly gates) (player : String) (now : Instant)
    {gate : UInt32} (hopen : (desk.basis player now).isUnlocked gate = true) : gate ∈ gates := by
  unfold Desk.basis at hopen
  cases hstored : desk.stored with
  | some record => exact honly.stored record hstored gate (by simpa [hstored] using hopen)
  | none =>
      cases hcached : desk.cached with
      | some slot => exact honly.cached slot hcached gate (by simpa [hstored, hcached] using hopen)
      | none => simp [hstored, hcached] at hopen

theorem Loads.opensOnly {curriculum : Curriculum} {player : String} {now : Instant} {after : Desk}
    {loaded : Loaded} (hloads : desk.Loads curriculum player now loaded after)
    (honly : desk.OpensOnly gates) : after.OpensOnly (gates ++ loaded.unlocked) := by
  have hmore := honly.mono (List.subset_append_left gates loaded.unlocked)
  cases hloads with
  | durable record hcached => exact hmore
  | unread record hcached => exact hmore.read player false
  | standIn loaded hcached hloaded =>
      subst hloaded
      refine (hmore.read player false).hold fun gate hopen => ?_
      rcases Loaded.mem_unlocked_setUp hopen with hbefore | hnew
      · simp at hbefore
      · exact List.mem_append_right gates hnew
  | unchanged record hneeds hstored hset =>
      exact (hmore.read player true).hold (hmore.stored record hstored)
  | changed loaded hneeds hloaded =>
      have hrecord : ∀ gate, loaded.slot.record.isUnlocked gate = true →
          gate ∈ gates ++ loaded.unlocked := by
        rw [hloaded]
        intro gate hopen
        rcases Loaded.mem_unlocked_setUp hopen with hbefore | hnew
        · exact List.mem_append_left _ (honly.basis player now hbefore)
        · exact List.mem_append_right gates hnew
      exact ((hmore.read player true).hold hrecord).write hrecord loaded.persisted

end Desk

/-! ### Decisions -/

namespace Turn

variable {σ : Type} [RecordStore σ] [LawfulStore σ] {turn : Turn (TracedStore σ)} {player : String}
  {gates : List UInt32}

theorem opensOnly_judge (hplayer : turn.slot.record.player = player)
    (honly : (turn.desk player).OpensOnly (gates ++ turn.report.unlocked)) (session : String)
    (live : LiveAction) (spot : Situation) (now : Instant) (skill : String) :
    ((turn.judge session live spot now skill).desk player).OpensOnly
      (gates ++ (turn.judge session live spot now skill).report.unlocked) := by
  have hdraft : (turn.judge session live spot now skill).draft = _ :=
    turn.draft_judge session now skill
  have hbefore : turn.draft.Accounts gates := honly.cached turn.slot rfl
  have hafter := hbefore.judge turn.engine.course live spot now skill
  rw [← hdraft] at hafter
  have hgrown : turn.report.unlocked ⊆
      (turn.judge session live spot now skill).report.unlocked := by
    have hprefix := turn.draft.unlocked_judge turn.engine.course live spot now skill
    rw [← hdraft] at hprefix
    exact hprefix ▸ List.subset_append_left _ _
  have hmore := honly.mono (List.append_subset.mpr ⟨List.subset_append_left gates _,
    List.subset_append_of_subset_right gates hgrown⟩)
  rcases turn.judge_cases session now live spot skill with
    ⟨-, hjudge⟩ | ⟨definition, rfl, hskill, happlicable, hjudge⟩
  · rw [hjudge] at hmore ⊢
    exact hmore
  · obtain ⟨worked, hlearned⟩ := turn.desk_learned hplayer definition
      (turn.engine.rules.evaluate definition.id live spot) now
    rw [hjudge] at hmore hafter ⊢
    simp only [desk, Engine.desk_remember] at hlearned ⊢
    rw [hlearned]
    exact hmore.save hafter worked

theorem opensOnly_foldl_judge (hplayer : turn.slot.record.player = player)
    (honly : (turn.desk player).OpensOnly (gates ++ turn.report.unlocked)) (session : String)
    (live : LiveAction) (spot : Situation) (now : Instant) (skills : List String) :
    ((skills.foldl (judge session live spot now) turn).desk player).OpensOnly
      (gates ++ (skills.foldl (judge session live spot now) turn).report.unlocked) := by
  induction skills generalizing turn with
  | nil => exact honly
  | cons skill rest ih =>
      exact ih ((turn.record_judge_extends session live spot now skill).player.trans hplayer)
        (opensOnly_judge hplayer honly session live spot now skill)

end Turn

namespace Engine

section Opened

variable {σ : Type} [RecordStore σ] (engine : Engine σ) (player : String)

/-- The gates that an operation opens to a player by onboarding. -/
def opened : Operation → List UInt32
  | .onboard newcomer experience now =>
      let (done, onboarded) := engine.onboard newcomer experience now
      if newcomer = player && done.isOk then
        (onboarded.slot? player).elim [] fun slot => slot.record.openGates
      else []
  | _ => []

/-- The gates that onboarding has opened to a player in a run. -/
def startedWith (player : String) (engine : Engine σ) : List Operation → List UInt32
  | [] => []
  | operation :: rest =>
      engine.opened player operation ++ startedWith player (engine.step operation) rest

variable {player} in
theorem opened_of_not_brings {operation : Operation} (hbrings : ¬ operation.brings player) :
    engine.opened player operation = [] := by
  cases operation with
  | onboard newcomer experience now =>
      have hne : newcomer ≠ player := hbrings
      simp [opened, hne]
  | _ => rfl

end Opened

variable {σ : Type} [RecordStore σ] [LawfulStore σ] {engine : Engine (TracedStore σ)}
  {gates : List UInt32}

theorem opensOnly_decide {decision : Decision}
    (hkeyed : (engine.desk decision.player).Keyed decision.player)
    (honly : (engine.desk decision.player).OpensOnly gates) (session : String) (live : LiveAction)
    (now : Instant) :
    ((engine.decide session decision live now).2.desk decision.player).OpensOnly
      (gates ++ (engine.decide session decision live now).1.unlocked) := by
  have hstart := (loads_loadFor hkeyed session now).opensOnly honly
  rw [← desk_startTurn hkeyed session live] at hstart
  rw [desk_decide]
  exact Turn.opensOnly_foldl_judge (player_startTurn hkeyed session live now) hstart session live
    (decision.situation (some live)) now _

variable (engine) in
theorem opened_onboard (player : String) (experience : Experience) (now : Instant) :
    engine.opened player (.onboard player experience now) =
      if (engine.onboard player experience now).1.isOk then
        (((engine.onboard player experience now).2.desk player).cached).elim [] fun slot =>
          slot.record.openGates
      else [] := by
  simp only [opened, decide_true, Bool.true_and]
  rfl

theorem opensOnly_onboard {player : String} (honly : (engine.desk player).OpensOnly gates)
    (experience : Experience) (now : Instant) :
    ((engine.onboard player experience now).2.desk player).OpensOnly
      (gates ++ engine.opened player (.onboard player experience now)) := by
  have honboards := engine.desk_onboard player experience now
  rw [opened_onboard]
  generalize (engine.onboard player experience now).2.desk player = after at honboards ⊢
  generalize (engine.onboard player experience now).1 = answer at honboards ⊢
  cases honboards with
  | known error => exact honly.mono (List.subset_append_left gates [])
  | refused error worked =>
      exact (honly.mono (List.subset_append_left gates [])).read player worked
  | declined error hcached hstored honboard =>
      have hmore := honly.mono (List.subset_append_left gates [])
      exact ⟨hmore.cached, hmore.stored⟩
  | @started record rows hcached hstored honboard =>
      have hmore := honly.mono (List.subset_append_left gates record.openGates)
      have hnew (gate : UInt32) (hopen : record.isUnlocked gate = true) :
          gate ∈ gates ++ record.openGates :=
        List.mem_append_right gates (PlayerRecord.mem_openGates_iff.mpr hopen)
      exact ((hmore.read player true).write hnew true).hold hnew

/-- Every gate that is open after an operation was open before, was opened by onboarding, or is
reported. -/
theorem Keyed.opensOnly_step (hkeyed : engine.Keyed) {operation : Operation}
    (hgoes : operation.restarts? = none) {player : String}
    (honly : (engine.desk player).OpensOnly gates) :
    ((engine.step operation).desk player).OpensOnly
      (gates ++ engine.opened player operation ++
        (reportsOf player engine [operation]).flatMap DecisionReport.unlocked) := by
  by_cases hbrings : operation.brings player
  · rcases operation.brings_cases hbrings with
      ⟨session, decision, live, now, rfl, rfl⟩ | ⟨experience, now, rfl⟩
    · have hdecide := opensOnly_decide (hkeyed decision.player) honly session live now
      refine hdecide.mono ?_
      rw [reportsOf_cons_decide, if_pos rfl]
      simp [opened, reportsOf]
    · exact (opensOnly_onboard honly experience now).mono (List.subset_append_left _ _)
  · refine Desk.OpensOnly.mono ?_ (List.Subset.trans (List.subset_append_left gates _)
      (List.subset_append_left _ _))
    rcases hkeyed.desk_step_of_not_brings hgoes hbrings with
      hsame | ⟨asked, worked, hread⟩ | hreleases
    · rwa [hsame]
    · rw [hread]
      exact honly.read asked worked
    · exact hreleases.all honly

theorem Keyed.opensOnly_run (hkeyed : engine.Keyed) {operations : List Operation}
    (hgoes : ∀ operation ∈ operations, operation.restarts? = none) {player : String}
    (honly : (engine.desk player).OpensOnly gates) :
    ((engine.run operations).desk player).OpensOnly
      (gates ++ startedWith player engine operations ++
        (reportsOf player engine operations).flatMap DecisionReport.unlocked) := by
  induction operations generalizing engine gates with
  | nil => simpa [startedWith, reportsOf] using honly
  | cons operation rest ih =>
      obtain ⟨hfirst, hrest⟩ := List.forall_mem_cons.mp hgoes
      have hstep := hkeyed.opensOnly_step hfirst honly
      refine (ih (hkeyed.step operation) hrest hstep).mono fun gate hmem => ?_
      rw [reportsOf_cons, List.flatMap_append, startedWith]
      simp only [List.mem_append] at hmem ⊢
      tauto

end Engine

end PokerCoach
