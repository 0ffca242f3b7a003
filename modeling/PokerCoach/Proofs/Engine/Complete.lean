import PokerCoach.Proofs.Progress.Sound
import PokerCoach.Proofs.Engine.Run

/-!
# Complete records

A cached record has a row for every skill of its open gates, whatever the store held when it was
loaded: loading creates the rows that are missing, and whatever opens a gate creates the rows of its
skills.
-/

namespace PokerCoach

open Std Time

theorem PlayerRecord.missing_of_onboard? {curriculum : Curriculum} (hwell : curriculum.WellFormed)
    {player : String} {now : Instant} {experience : Experience} {record : PlayerRecord}
    {rows : List Backfill}
    (honboard : (fresh player now).onboard? curriculum experience now = some (record, rows)) :
    record.missing curriculum = [] := by
  by_cases hgates : curriculum.gates = []
  · rw [missing, hgates, List.flatMap_nil]
  · obtain ⟨frontier, hsound⟩ := sound_of_onboard? hwell hgates honboard
    exact hsound.isSetUp.2

namespace Desk

/-- What is cached is missing no row. -/
def Complete (curriculum : Curriculum) (desk : Desk) : Prop :=
  ∀ slot, desk.cached = some slot → slot.record.missing curriculum = []

variable {curriculum : Curriculum} {player : String} {desk after : Desk}

theorem Loads.missing {now : Instant} {loaded : Loaded}
    (hloads : desk.Loads curriculum player now loaded after)
    (hcomplete : desk.Complete curriculum) : loaded.slot.record.missing curriculum = [] := by
  cases hloads with
  | durable record hcached => exact hcomplete _ hcached
  | unread record hcached => exact hcomplete _ hcached
  | standIn loaded hcached hloaded =>
      rw [hloaded]
      exact (PlayerRecord.isSetUp_setUp _ curriculum now).2
  | unchanged record hneeds hstored hset => exact hset.2
  | changed loaded hneeds hloaded =>
      rw [hloaded]
      exact (PlayerRecord.isSetUp_setUp _ curriculum now).2

theorem Complete.move (hcomplete : desk.Complete curriculum) (hwell : curriculum.WellFormed)
    (hmove : desk.Move curriculum player after) : after.Complete curriculum := by
  intro slot hcached
  cases hmove with
  | read worked => exact hcomplete slot hcached
  | load now hloads =>
      cases hloads.cached_eq.symm.trans hcached
      exact hloads.missing hcomplete
  | learn before skill outcome marginalCredit now worked hbefore hskill happlicable hcomes =>
      have hlearned := PlayerRecord.missing_learn now (hcomplete before hbefore) skill outcome
        marginalCredit
      unfold Desk.save at hcached
      split at hcached <;> cases hcached <;> exact hlearned
  | release hreleases =>
      cases hreleases with
      | absent hnone => exact hcomplete slot hcached
      | kept record hkept => exact hcomplete slot hcached
      | _ => cases hcached
  | onboard experience now hnone hstored honboard =>
      cases hcached
      exact PlayerRecord.missing_of_onboard? hwell honboard
  | decline experience now hnone hstored honboard => exact hcomplete slot hcached

end Desk

namespace Engine

variable {σ : Type} [RecordStore σ] [LawfulStore σ] {engine : Engine (TracedStore σ)}

theorem Keyed.complete_step (hkeyed : engine.Keyed) (hwell : engine.curriculum.WellFormed)
    {player : String} (hcomplete : (engine.desk player).Complete engine.curriculum)
    (operation : Operation) :
    ((engine.step operation).desk player).Complete (engine.step operation).curriculum := by
  cases hrestarts : operation.restarts? with
  | none =>
      rw [engine.curriculum_step hrestarts]
      exact (hkeyed.moves_step hrestarts player).keeps (fun _ _ hmove hdesk => hdesk.move hwell hmove)
        hcomplete
  | some course =>
      obtain ⟨journal, rfl⟩ := Operation.restarts?_eq_some hrestarts
      rw [desk_restart]
      rintro _ ⟨⟩

/-- Whatever curricula are taught one after the other, what is cached is complete for the last. -/
theorem Keyed.complete_run (hkeyed : engine.Keyed) (hwell : engine.curriculum.WellFormed)
    {operations : List Operation}
    (htaught : ∀ operation ∈ operations, ∀ course, operation.restarts? = some course →
      course.curriculum.WellFormed)
    {player : String} (hcomplete : (engine.desk player).Complete engine.curriculum) :
    (engine.run operations).curriculum.WellFormed ∧
      ((engine.run operations).desk player).Complete (engine.run operations).curriculum := by
  induction operations generalizing engine with
  | nil => exact ⟨hwell, hcomplete⟩
  | cons operation rest ih =>
      have hrest := fun other hmem => htaught other (List.mem_cons_of_mem operation hmem)
      refine ih (hkeyed.step operation) ?_ hrest (hkeyed.complete_step hwell hcomplete operation)
      cases hrestarts : operation.restarts? with
      | none => exact engine.curriculum_step hrestarts ▸ hwell
      | some course =>
          have hcourse := htaught operation List.mem_cons_self course hrestarts
          obtain ⟨journal, rfl⟩ := Operation.restarts?_eq_some hrestarts
          exact hcourse

theorem Keyed.missing_loadFor (hkeyed : engine.Keyed) {decision : Decision}
    (hcomplete : (engine.desk decision.player).Complete engine.curriculum) (session : String)
    (now : Instant) :
    (engine.loadFor session decision now).1.slot.record.missing engine.curriculum = [] :=
  (loads_loadFor (hkeyed decision.player) session now).missing hcomplete

/-- In any engine that a run on any store reaches, what is cached is missing no row. -/
theorem complete_reached {store : σ}
    (hstore : ∀ player record, held store player = some record → record.player = player)
    {course : Course} (haccepted : course.curriculum.Accepted) (journal : Option Journal)
    {operations : List Operation}
    (htaught : ∀ operation ∈ operations, ∀ other, operation.restarts? = some other →
      other.curriculum.Accepted) (player : String) :
    (reached store course journal operations).curriculum.WellFormed ∧
      ((reached store course journal operations).desk player).Complete
        (reached store course journal operations).curriculum := by
  refine (keyed_launch hstore course journal).complete_run haccepted.wellFormed ?_ ?_
  · intro operation hmem other hrestarts
    exact (htaught operation hmem other hrestarts).wellFormed
  · rw [desk_launch]
    rintro _ ⟨⟩

end Engine

end PokerCoach
