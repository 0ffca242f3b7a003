import PokerCoach.Proofs.Engine.Run

/-!
# The current record

The record that counts of a player is the cached one, and the stored one if none is cached. As long
as no read fails it is lost by nothing: every move leaves a record that extends it.
-/

namespace PokerCoach

open Std Time

namespace Desk

/-- The record that counts. -/
def current (desk : Desk) : Option PlayerRecord :=
  (desk.cached.map Slot.record).or desk.stored

theorem All.current {desk : Desk} {holds : PlayerRecord → Prop} (hall : desk.All holds)
    {record : PlayerRecord} (hcurrent : desk.current = some record) : holds record := by
  unfold Desk.current at hcurrent
  cases hcached : desk.cached with
  | some slot =>
      rw [hcached] at hcurrent
      cases hcurrent
      exact hall.cached slot hcached
  | none =>
      rw [hcached] at hcurrent
      exact hall.stored record hcurrent

def Unfailing (desk : Desk) : Prop :=
  ∀ player, Access.read player false ∉ desk.accesses

/-- No cached record only stands in for one that could not be read. -/
def Trusted (desk : Desk) : Prop :=
  ∀ slot, desk.cached = some slot → slot.durable = true

/-- The current record is there afterwards, and only more of it. -/
def Continues (desk after : Desk) : Prop :=
  ∀ record, desk.current = some record →
    ∃ grown, after.current = some grown ∧ grown.Extends record

/-! ### Accesses -/

theorem accesses_save (desk : Desk) (slot : Slot) (worked : Bool) :
    desk.accesses <+: (desk.save slot worked).accesses := by
  unfold save
  split
  · exact List.prefix_append _ _
  · exact List.prefix_rfl

theorem Loads.accesses {curriculum : Curriculum} {player : String} {now : Instant}
    {desk after : Desk}
    {loaded : Loaded} (hloads : desk.Loads curriculum player now loaded after) :
    desk.accesses <+: after.accesses := by
  cases hloads with
  | durable => exact List.prefix_rfl
  | changed => exact (List.prefix_append _ _).trans (List.prefix_append _ _)
  | _ => exact List.prefix_append _ _

theorem Releases.accesses {desk after : Desk} (hreleases : desk.Releases after) :
    desk.accesses <+: after.accesses := by
  cases hreleases with
  | absent => exact List.prefix_rfl
  | forgotten => exact List.prefix_rfl
  | _ => exact List.prefix_append _ _

theorem Move.accesses {curriculum : Curriculum} {player : String} {desk after : Desk}
    (hmove : desk.Move curriculum player after) : desk.accesses <+: after.accesses := by
  cases hmove with
  | read => exact List.prefix_append _ _
  | load now hloads => exact hloads.accesses
  | learn => exact accesses_save _ _ _
  | release hreleases => exact hreleases.accesses
  | _ => exact (List.prefix_append _ _).trans (List.prefix_append _ _)

theorem Moves.accesses {curriculum : Curriculum} {player : String} {desk after : Desk}
    (hmoves : desk.Moves curriculum player after) : desk.accesses <+: after.accesses := by
  induction hmoves with
  | refl => exact List.prefix_rfl
  | tail _ hmove ih => exact ih.trans hmove.accesses

theorem Unfailing.of_accesses {desk after : Desk} (hafter : after.Unfailing)
    (haccesses : desk.accesses <+: after.accesses) : desk.Unfailing :=
  fun player hmem => hafter player (haccesses.subset hmem)

theorem unfailing_desk {σ : Type} [RecordStore σ] [LawfulStore σ] {engine : Engine (TracedStore σ)}
    {player : String} (hreads : Access.read player false ∉ engine.store.accesses) :
    (engine.desk player).Unfailing := by
  intro other hmem
  obtain ⟨hread, howner⟩ := List.mem_filter.mp hmem
  obtain rfl : other = player := by simpa [Access.player] using howner
  exact hreads hread

theorem not_unfailing_read (desk : Desk) (player : String) : ¬ (desk.read player false).Unfailing :=
  fun hafter => hafter player (List.mem_append_right _ List.mem_cons_self)

/-! ### Moves -/

theorem Trusted.cached_eq_none {desk : Desk} (htrusted : desk.Trusted) (hneeds : desk.NeedsRead) :
    desk.cached = none := by
  cases hcached : desk.cached with
  | none => rfl
  | some slot => cases (htrusted slot hcached).symm.trans (hneeds slot hcached)

theorem basis_of_cached_eq_none {desk : Desk} (hcached : desk.cached = none) (player : String)
    (now : Instant) : desk.basis player now = desk.current.getD (.fresh player now) := by
  simp [basis, current, hcached]

theorem continues_of_current_eq {desk after : Desk} (hcurrent : after.current = desk.current) :
    desk.Continues after :=
  fun record hrecord => ⟨record, hcurrent.trans hrecord, .refl record⟩

theorem continues_of_extends {desk after : Desk} {record : PlayerRecord}
    (hafter : after.current = some record)
    (hextends : ∀ before, desk.current = some before → record.Extends before) :
    desk.Continues after :=
  fun before hbefore => ⟨record, hafter, hextends before hbefore⟩

theorem Continues.trans {first second third : Desk} (hfirst : first.Continues second)
    (hsecond : second.Continues third) : first.Continues third := by
  intro record hrecord
  obtain ⟨middle, hmiddle, hold⟩ := hfirst record hrecord
  obtain ⟨last, hlast, hnew⟩ := hsecond middle hmiddle
  exact ⟨last, hlast, hnew.trans hold⟩

theorem current_save (desk : Desk) (slot : Slot) (worked : Bool) :
    (desk.save slot worked).current = some slot.record := by
  unfold save
  split <;> rfl

/-- What a load that reads without failure leaves: the current record set up. -/
theorem Loads.trusted {curriculum : Curriculum} {player : String} {now : Instant}
    {desk after : Desk}
    {loaded : Loaded} (hloads : desk.Loads curriculum player now loaded after)
    (htrusted : desk.Trusted) (hafter : after.Unfailing) :
    loaded.slot.durable = true ∧
      (loaded = { slot := ⟨loaded.slot.record, true⟩ } ∧ desk.current = some loaded.slot.record ∨
        loaded = .setUp (desk.current.getD (.fresh player now)) curriculum now true
          loaded.persisted) := by
  cases hloads with
  | durable record hcached => exact ⟨rfl, .inl ⟨rfl, by simp [current, hcached]⟩⟩
  | unread record hcached => exact absurd hafter (not_unfailing_read desk player)
  | standIn loaded hcached hloaded => exact absurd hafter (not_unfailing_read desk player)
  | unchanged record hneeds hstored hset =>
      exact ⟨rfl, .inl ⟨rfl, by simp [current, htrusted.cached_eq_none hneeds, hstored]⟩⟩
  | changed loaded hneeds hloaded =>
      rw [basis_of_cached_eq_none (htrusted.cached_eq_none hneeds)] at hloaded
      exact ⟨hloaded ▸ rfl, .inr hloaded⟩

theorem Loads.continues {curriculum : Curriculum} {player : String} {now : Instant}
    {desk after : Desk} {loaded : Loaded}
    (hloads : desk.Loads curriculum player now loaded after) (htrusted : desk.Trusted)
    (hafter : after.Unfailing) : desk.Continues after := by
  have hcurrent : after.current = some loaded.slot.record := by
    simp [current, hloads.cached_eq]
  refine continues_of_extends hcurrent fun before hbefore => ?_
  rcases (hloads.trusted htrusted hafter).2 with ⟨-, hsame⟩ | hloaded
  · cases hbefore.symm.trans hsame
    exact .refl _
  · rw [hloaded, hbefore]
    exact before.setUp_extends curriculum now

theorem Releases.continues {desk after : Desk} (hreleases : desk.Releases after)
    (htrusted : desk.Trusted) : after.Trusted ∧ after.current = desk.current := by
  cases hreleases with
  | absent hcached => exact ⟨htrusted, rfl⟩
  | saved record hcached => exact ⟨by rintro _ ⟨⟩, by simp [current, clear, write, hcached]⟩
  | kept record hcached => exact ⟨htrusted, by simp [current, write, hcached]⟩
  | forgotten record hcached => cases htrusted _ hcached

theorem Move.continues {curriculum : Curriculum} {player : String} {desk after : Desk}
    (hmove : desk.Move curriculum player after) (htrusted : desk.Trusted)
    (hafter : after.Unfailing) : after.Trusted ∧ desk.Continues after := by
  cases hmove with
  | read worked => exact ⟨htrusted, continues_of_current_eq rfl⟩
  | load now hloads =>
      refine ⟨fun slot hslot => ?_, hloads.continues htrusted hafter⟩
      cases hloads.cached_eq.symm.trans hslot
      exact (hloads.trusted htrusted hafter).1
  | learn slot skill outcome marginalCredit now worked hcached hskill happlicable hcomes =>
      refine ⟨fun other hother => ?_,
        continues_of_extends (current_save _ _ _) fun before hbefore => ?_⟩
      · have hdurable := htrusted slot hcached
        simp only [save, hdurable, if_true] at hother
        cases hother
        rfl
      · cases (show desk.current = some slot.record by simp [current, hcached]).symm.trans hbefore
        exact slot.record.learn_extends curriculum now skill outcome marginalCredit
  | release hreleases =>
      obtain ⟨hstill, hcurrent⟩ := hreleases.continues htrusted
      exact ⟨hstill, continues_of_current_eq hcurrent⟩
  | onboard experience now hcached hstored honboard =>
      refine ⟨by rintro _ ⟨⟩; rfl, fun before hbefore => ?_⟩
      simp [current, hcached, hstored] at hbefore
  | decline experience now hcached hstored honboard =>
      exact ⟨htrusted, continues_of_current_eq rfl⟩

theorem Moves.continues {curriculum : Curriculum} {player : String} {desk after : Desk}
    (hmoves : desk.Moves curriculum player after) (htrusted : desk.Trusted)
    (hafter : after.Unfailing) : after.Trusted ∧ desk.Continues after := by
  induction hmoves with
  | refl => exact ⟨htrusted, continues_of_current_eq rfl⟩
  | tail _ hmove ih =>
      obtain ⟨hmiddle, hfirst⟩ := ih (hafter.of_accesses hmove.accesses)
      obtain ⟨hlast, hsecond⟩ := hmove.continues hmiddle hafter
      exact ⟨hlast, hfirst.trans hsecond⟩

end Desk

end PokerCoach
