import PokerCoach.Proofs.Engine.Agreement
import PokerCoach.Proofs.Engine.Effects
import PokerCoach.Proofs.Engine.Independence

/-!
# Closing sessions

A session that is closed saves the progress of its owner, if it is the last one that the owner has
open. Others who have played in it are left in the cache as they are: what they have is stored too,
unless their last write failed.
-/

namespace PokerCoach

open Std Time
open Access (lastWrite? lastWrite?_append)

/-! ### Players who have decided -/

namespace Desk

/-- What is cached is set up. -/
def Tended (curriculum : Curriculum) (desk : Desk) : Prop :=
  ∀ slot, desk.cached = some slot → slot.record.IsSetUp curriculum

/-- There is a current record, and it is set up. -/
def InPlay (curriculum : Curriculum) (desk : Desk) : Prop :=
  ∃ record, desk.current = some record ∧ record.IsSetUp curriculum

variable {curriculum : Curriculum} {player : String} {desk after : Desk}

theorem Loads.isSetUp {now : Instant} {loaded : Loaded}
    (hloads : desk.Loads curriculum player now loaded after) (htended : desk.Tended curriculum) :
    loaded.slot.record.IsSetUp curriculum := by
  cases hloads with
  | durable record hcached => exact htended _ hcached
  | unread record hcached => exact htended _ hcached
  | standIn loaded hcached hloaded =>
      rw [hloaded]
      exact PlayerRecord.isSetUp_setUp _ curriculum now
  | unchanged record hneeds hstored hset => exact hset
  | changed loaded hneeds hloaded =>
      rw [hloaded]
      exact PlayerRecord.isSetUp_setUp _ curriculum now

theorem Releases.tended (hreleases : desk.Releases after) (htended : desk.Tended curriculum) :
    after.Tended curriculum := by
  cases hreleases with
  | absent => exact htended
  | kept => exact htended
  | _ => rintro _ ⟨⟩

end Desk

namespace Engine

variable {σ : Type} [RecordStore σ] [LawfulStore σ] {engine : Engine (TracedStore σ)}

theorem isSetUp_endTurn {decision : Decision}
    (hkeyed : (engine.desk decision.player).Keyed decision.player)
    (htended : (engine.desk decision.player).Tended engine.curriculum) (session : String)
    (live : LiveAction) (now : Instant) :
    (engine.endTurn session decision live now).slot.record.IsSetUp engine.curriculum := by
  have hloaded := (loads_loadFor hkeyed session now).isSetUp htended
  have hrecord : (engine.endTurn session decision live now).slot.record = _ :=
    congrArg Draft.record (engine.draft_endTurn session decision live now)
  rw [hrecord]
  exact Draft.isSetUp_foldl_judge engine.course live _ now _ hloaded

variable (hkeyed : engine.Keyed) {operation : Operation} {player : String}
  (hgoes : operation.restarts? = none) (hknown : operation.onboards = false)
  (htended : (engine.desk player).Tended engine.curriculum)
include hkeyed hgoes hknown htended

theorem Keyed.tended_step : ((engine.step operation).desk player).Tended engine.curriculum := by
  cases hdecision : operation.decisionOf? player with
  | none =>
      rcases hkeyed.desk_step_of_decisionOf? hgoes hknown hdecision with
        hsame | ⟨asked, worked, hread⟩ | ⟨-, hreleases⟩
      · rwa [hsame]
      · rw [hread]
        exact htended
      · exact hreleases.tended htended
  | some move =>
      obtain ⟨decision, live, now⟩ := move
      obtain ⟨session, rfl, rfl⟩ := Operation.decisionOf?_eq_some hdecision
      intro slot hcached
      cases (cached_decide session decision live now).symm.trans hcached
      exact isSetUp_endTurn (hkeyed decision.player) htended session live now

theorem Keyed.inPlay_step (htrusted : (engine.desk player).Trusted)
    (hdecided : (engine.desk player).InPlay engine.curriculum ∨
      (operation.decisionOf? player).isSome) :
    ((engine.step operation).desk player).InPlay engine.curriculum := by
  cases hdecision : operation.decisionOf? player with
  | none =>
      rw [hdecision] at hdecided
      have hcurrent := hkeyed.current_step hgoes hknown hdecision fun _ => htrusted
      obtain hplays | hnone := hdecided
      · rwa [Desk.InPlay, hcurrent]
      · cases hnone
  | some move =>
      obtain ⟨decision, live, now⟩ := move
      obtain ⟨session, rfl, rfl⟩ := Operation.decisionOf?_eq_some hdecision
      refine ⟨_, ?_, isSetUp_endTurn (hkeyed decision.player) htended session live now⟩
      change ((engine.decide session decision live now).2.desk decision.player).current = _
      rw [Desk.current, cached_decide]
      rfl

omit hgoes hknown in
/-- A player who has decided has a record that is set up, if no read has failed. -/
theorem Keyed.inPlay_run {operations : List Operation}
    (hgoes : ∀ operation ∈ operations, operation.restarts? = none ∧ operation.onboards = false)
    (htrusted : (engine.desk player).Trusted)
    (hreads : ((engine.run operations).desk player).Unfailing)
    (hdecided : (engine.desk player).InPlay engine.curriculum ∨
      ∃ operation ∈ operations, (operation.decisionOf? player).isSome) :
    ((engine.run operations).desk player).InPlay engine.curriculum := by
  induction operations generalizing engine with
  | nil => exact hdecided.elim id fun ⟨_, hmem, _⟩ => absurd hmem List.not_mem_nil
  | cons operation rest ih =>
      obtain ⟨hgo, hknown⟩ := hgoes operation List.mem_cons_self
      have hrest := fun other hmem => hgoes other (List.mem_cons_of_mem operation hmem)
      have hcurriculum := engine.curriculum_step hgo
      have hmoves := (hkeyed.step operation).moves_run (fun other hmem => (hrest other hmem).1)
        player
      have hstill := ((hkeyed.moves_step hgo player).continues htrusted
        (hreads.of_accesses hmoves.accesses)).1
      have hlater := ih (hkeyed.step operation)
        (hcurriculum ▸ hkeyed.tended_step hgo hknown htended) hrest hstill hreads
      rw [hcurriculum] at hlater
      refine hlater ?_
      rcases hdecided with hplays | ⟨other, hmem, hother⟩
      · exact .inl (hkeyed.inPlay_step hgo hknown htended htrusted (.inl hplays))
      · rcases List.mem_cons.mp hmem with rfl | hmem
        · exact .inl (hkeyed.inPlay_step hgo hknown htended htrusted (.inr hother))
        · exact .inr ⟨other, hmem, hother⟩

end Engine

/-! ### The last session of a player -/

theorem Effects.accesses {σ : Type} [RecordStore σ] [LawfulStore σ] {writes : String → Prop}
    {caches : Slot → Prop} {holdings after : Holdings (TracedStore σ)}
    (heffects : Effects writes caches holdings after) :
    holdings.store.accesses <+: after.store.accesses := by
  refine heffects.keeps (fun reached => holdings.store.accesses <+: reached.store.accesses)
    (fun before next heffect hprefix => ?_) List.prefix_rfl
  cases heffect with
  | read player => exact hprefix.trans (List.prefix_append _ _)
  | write record => exact hprefix.trans (List.prefix_append _ _)
  | _ => exact hprefix

namespace Engine

/-- The session is open, and no other one is open that has the same owner. -/
def IsLastOf {σ : Type} (engine : Engine σ) (session player : String) : Prop :=
  ∃ opened, engine.session? session = some opened ∧ opened.owner = player ∧
    ∀ other ∈ (engine.sessions.erase session).values, other.owner ≠ player

variable {σ : Type} [RecordStore σ] [LawfulStore σ] {engine : Engine (TracedStore σ)}

theorem Keyed.releases_endSession (hkeyed : engine.Keyed) {session player : String}
    (hlast : engine.IsLastOf session player) (now : Instant) :
    (engine.desk player).Releases ((engine.endSession session now).2.desk player) := by
  obtain ⟨opened, hopened, rfl, hothers⟩ := hlast
  have hclosed : Keyed { engine with sessions := engine.sessions.erase session } := hkeyed
  have hplays : ((engine.sessions.erase session).values.any fun other =>
      other.owner == opened.owner) = false := by
    simpa using hothers
  simp only [endSession, hopened, hplays]
  exact releases_release _ (hclosed opened.owner) now

/-- The writes of a player while a session is closed are among all writes then. -/
theorem mem_drop_of_accessesOf_eq {session player : String} {now : Instant} {access : Access}
    (haccesses : (engine.endSession session now).2.store.accessesOf player =
      engine.store.accessesOf player ++ [access]) :
    access ∈ (engine.endSession session now).2.store.accesses.drop
      engine.store.accesses.length := by
  obtain ⟨during, hduring⟩ : engine.store.accesses <+: _ :=
    (engine.effects_endSession session now).accesses
  change engine.store.accesses ++ during = (engine.endSession session now).2.store.accesses
    at hduring
  rw [TracedStore.accessesOf, ← hduring, List.filter_append] at haccesses
  have hown := List.append_cancel_left haccesses
  rw [← hduring, List.drop_left]
  exact (List.mem_filter.mp (hown ▸ List.mem_singleton_self access)).1

/-- Where no write fails, the last session of a player leaves nothing in the cache. -/
theorem Keyed.cached_endSession (hkeyed : engine.Keyed) {session player : String}
    (hlast : engine.IsLastOf session player) {now : Instant}
    (hwrites : ∀ access ∈ (engine.endSession session now).2.store.accesses.drop
      engine.store.accesses.length, access.written? ≠ some false) :
    ((engine.endSession session now).2.desk player).cached = none := by
  have hreleases := hkeyed.releases_endSession hlast now
  generalize hafter : (engine.endSession session now).2.desk player = after at hreleases ⊢
  cases hreleases with
  | absent hcached => exact hcached
  | kept record hcached =>
      have hfailed := mem_drop_of_accessesOf_eq (congrArg Desk.accesses hafter)
      exact absurd rfl (hwrites _ hfailed)
  | _ => rfl

section Reached

variable {store : σ}
  (hstore : ∀ player record, held store player = some record → record.player = player)
  {course : Course} {journal : Option Journal} {operations : List Operation}
  (hgoes : ∀ operation ∈ operations, operation.restarts? = none ∧ operation.onboards = false)
include hstore hgoes

/-- A player who has decided is told the cached record, which is durable, or the stored one if none
is cached. -/
theorem progress_reached {player : String}
    (hdecided : ∃ operation ∈ operations, (operation.decisionOf? player).isSome) {later : Instant}
    (hreads : Access.read player false ∉
      ((reached store course journal operations).progress player later).2.store.accesses) :
    let engine := reached store course journal operations
    ∃ record, (engine.progress player later).1 = .ok record ∧
      (held engine.store player = some record ∨ engine.slot? player = some ⟨record, true⟩) := by
  intro engine
  have hkeyed := keyed_launch hstore course journal
  have hdesk := desk_launch store course journal player
  have htrusted : ((launch (.watch store) course journal).desk player).Trusted := by
    rw [hdesk]
    rintro _ ⟨⟩
  have htended : ((launch (.watch store) course journal).desk player).Tended course.curriculum := by
    rw [hdesk]
    rintro _ ⟨⟩
  have hfinal := Desk.unfailing_desk hreads
  have hunfailing : (engine.desk player).Unfailing :=
    hfinal.of_accesses (moves_progress player later player).accesses
  have hmoves := hkeyed.moves_run (fun operation hmem => (hgoes operation hmem).1) player
  have htrust : (engine.desk player).Trusted := (hmoves.continues htrusted hunfailing).1
  obtain ⟨record, hcurrent, hset⟩ : (engine.desk player).InPlay course.curriculum :=
    hkeyed.inPlay_run htended hgoes htrusted hunfailing (.inr hdecided)
  have hcurriculum : engine.curriculum = course.curriculum := by
    refine curriculum_run _ fun operation hmem other hrestarts => ?_
    cases (hgoes operation hmem).1.symm.trans hrestarts
  refine ⟨record, ?_, ?_⟩
  · rw [progress_eq_current ?_ (isOk_fetch_of_unfailing hfinal) later, hcurrent]
    · rfl
    · intro other hother
      cases hcurrent.symm.trans hother
      exact hcurriculum ▸ hset.2
  · rw [Desk.current] at hcurrent
    cases hcached : (engine.desk player).cached with
    | none =>
        rw [hcached] at hcurrent
        exact .inl hcurrent
    | some slot =>
        rw [hcached] at hcurrent
        cases hcurrent
        exact .inr (hcached.trans (by rw [← htrust slot hcached]))

omit hgoes in
/-- A durable cached record that is not stored is one whose last write failed. -/
theorem lastWrite_reached {player : String} {record : PlayerRecord}
    (hcached : (reached store course journal operations).slot? player = some ⟨record, true⟩) :
    held (reached store course journal operations).store player = some record ∨
      lastWrite? ((reached store course journal operations).store.accessesOf player) =
        some false := by
  have hlaunched : ¬ (launch (TracedStore.watch store) course journal).isDurable player := by
    rw [isDurable_iff, desk_launch]
    rintro ⟨_, ⟨⟩⟩
  obtain ⟨before, operation, after, since, -, -, haccesses, hstored | hfailed⟩ :=
    (keyed_launch hstore course journal).stored_or_failed hcached hlaunched
  · exact .inl hstored
  · right
    rw [show TracedStore.accessesOf _ player = _ from haccesses, lastWrite?_append, hfailed]
    rfl

end Reached

/-- When a session has been closed and no write failed on the way, what a player who has decided is
told to have is stored. The only exception is a record that is still cached since its last write
failed, and then the session was not the last one of the player. -/
theorem closing_saves_owner (store : σ)
    (hstore : ∀ player record, held store player = some record → record.player = player)
    (course : Course) (journal : Option Journal) (operations : List Operation)
    (hgoes : ∀ operation ∈ operations, operation.restarts? = none ∧ operation.onboards = false)
    (player : String)
    (hdecided : ∃ operation ∈ operations, (operation.decisionOf? player).isSome)
    (session : String) (now : Instant)
    (hwrites : ∀ access ∈
      ((reached store course journal operations).endSession session now).2.store.accesses.drop
        (reached store course journal operations).store.accesses.length,
      access.written? ≠ some false)
    (later : Instant)
    (hreads : Access.read player false ∉
      (((reached store course journal operations).endSession session now).2.progress player
        later).2.store.accesses) :
    let engine := reached store course journal operations
    let closed := (engine.endSession session now).2
    ∃ record, (closed.progress player later).1 = .ok record ∧
      (held closed.store player = some record ∨
        closed.slot? player = some ⟨record, true⟩ ∧
          lastWrite? (closed.store.accessesOf player) = some false ∧
          ¬ engine.IsLastOf session player) := by
  intro engine closed
  -- The closing is one more operation of the run.
  let whole := operations ++ [.endSession session now]
  have hclosed : reached store course journal whole = closed := run_append _ _ _
  have hwhole : ∀ operation ∈ whole, operation.restarts? = none ∧ operation.onboards = false :=
    fun operation hmem => (List.mem_append.mp hmem).elim (hgoes operation) fun hmem => by
      rw [List.mem_singleton.mp hmem]
      exact ⟨rfl, rfl⟩
  obtain ⟨operation, hmem, hdecision⟩ := hdecided
  have hworked : Access.read player false ∉
      ((reached store course journal whole).progress player later).2.store.accesses := by
    rwa [hclosed]
  have htold := progress_reached hstore hwhole
    ⟨operation, List.mem_append_left _ hmem, hdecision⟩ hworked
  rw [hclosed] at htold
  obtain ⟨record, hprogress, hstored | hcached⟩ := htold
  · exact ⟨record, hprogress, .inl hstored⟩
  · refine ⟨record, hprogress, ?_⟩
    have hagree := lastWrite_reached hstore (hclosed ▸ hcached)
    rw [hclosed] at hagree
    refine hagree.imp_right fun hfailed => ⟨hcached, hfailed, fun hlast => ?_⟩
    have hreached : engine.Keyed := (keyed_launch hstore course journal).run operations
    cases (hreached.cached_endSession hlast hwrites).symm.trans hcached

/-- The first two writes of a player fail, and the one at the end of the session works. -/
theorem closing_saves_owner_after_outage :
    let store : FaultyStore MemoryStore := { inner := .empty, writeFails := fun write => write < 2 }
    let decision : Decision :=
      { player := "ana", hand := 1, street := .preflop, flags := { trash := true } }
    let operations := [.decide "s" decision { action := .fold } .epoch]
    held (reached store {} none operations).store "ana" = none ∧ ∃ record,
      (((reached store {} none operations).endSession "s" .epoch).2.progress "ana" .epoch).1 =
        .ok record ∧
      held ((reached store {} none operations).endSession "s" .epoch).2.store "ana" =
        some record := by
  intro store decision operations
  have hunwritten : held (reached store {} none operations).store "ana" = none := by
    decide +kernel
  have hreleased :
      ((reached store {} none operations).endSession "s" .epoch).2.slot? "ana" = none := by
    decide +kernel
  obtain ⟨record, hprogress, hstored | ⟨hcached, -⟩⟩ :=
    closing_saves_owner store (player_of_held_empty MemoryStore.find?_empty) {} none operations
      (fun operation hmem => by rw [List.mem_singleton.mp hmem]; exact ⟨rfl, rfl⟩) "ana"
      ⟨_, List.mem_cons_self, rfl⟩ "s" .epoch (by decide +kernel) .epoch (by decide +kernel)
  · exact ⟨hunwritten, record, hprogress, hstored⟩
  · cases hreleased.symm.trans hcached

/-- A player in the session of another whose writes failed is not saved at its end, although writes
work again. -/
theorem closing_leaves_guest_unsaved :
    let store : FaultyStore MemoryStore := { inner := .empty, writeFails := fun write => write < 2 }
    let decision : Decision :=
      { player := "bo", hand := 1, street := .preflop, flags := { trash := true } }
    let engine :=
      reached store {} none
        [.startSession "s" "ana" .epoch, .decide "s" decision { action := .fold } .epoch]
    let ended := engine.endSession "s" .epoch
    ended.1.isOk = true ∧
      (∀ access ∈ ended.2.store.accesses.drop engine.store.accesses.length,
        access.written? ≠ some false) ∧
      (ended.2.progress "bo" .epoch).1.isOk = true ∧ held ended.2.store "bo" = none := by
  decide +kernel

end Engine

end PokerCoach
