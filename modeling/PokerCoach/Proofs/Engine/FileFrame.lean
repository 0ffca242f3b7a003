import PokerCoach.Proofs.Engine.Effects
import PokerCoach.Proofs.Engine.Operation
import PokerCoach.Proofs.Store.FileName
import PokerCoach.Store.Directory

/-!
# Decisions and files

Over a directory, a decision changes the files of one player and no other. Whose files these are is
said by the record that is loaded and not by the decision: a record is looked for under the player
who acts, and written under the player whom it names.
-/

namespace PokerCoach

open Std Time

namespace DirectoryStore

/-- Every file is as before but those of one player. -/
def SameBut (owner : String) (before after : DirectoryStore) : Prop :=
  ∀ name, name ≠ FileName.record owner → name ≠ FileName.temporary owner →
    after.files[name]? = before.files[name]?

theorem sameBut_insert (store : DirectoryStore) (record : PlayerRecord) :
    store.SameBut record.player (store.insert record) := by
  intro name hrecord htemporary
  simp [insert, ExtTreeMap.getElem?_insert, ExtTreeMap.getElem?_erase, hrecord.symm,
    htemporary.symm]

theorem sameBut_put (store : DirectoryStore) (record : PlayerRecord) :
    store.SameBut record.player (RecordStore.put store record).2 := by
  change store.SameBut record.player (store.put record).2
  unfold put
  dsimp only
  split
  · exact store.sameBut_insert record
  · exact fun _ _ _ => rfl

theorem SameBut.of_effects {owner : String} {caches : Slot → Prop}
    {holdings after : Holdings DirectoryStore}
    (heffects : Effects (· = owner) caches holdings after) :
    holdings.store.SameBut owner after.store := by
  refine heffects.keeps (fun reached => holdings.store.SameBut owner reached.store)
    (fun before next heffect hsame => ?_) fun _ _ _ => rfl
  cases heffect with
  | read player => exact hsame
  | write record hwrites =>
      subst hwrites
      exact fun name hrecord htemporary =>
        (before.store.sameBut_put record name hrecord htemporary).trans
          (hsame name hrecord htemporary)
  | tell event => exact hsame
  | cache player slot => exact hsame
  | drop player => exact hsame

/-- Other players have other files. -/
theorem SameBut.file_eq {owner other : String} {before after : DirectoryStore}
    (hsame : before.SameBut owner after) (hother : other ≠ owner) :
    after.files[FileName.record other]? = before.files[FileName.record other]? :=
  hsame _ (fun heq => hother (FileName.record_injective heq)) (FileName.record_ne_temporary _ _)

end DirectoryStore

namespace Engine

/-- A decision changes no file but those of one player: the player who acts, or one whom the record
that is cached or stored for that player names. So nobody else's file changes if these records name
the player they are kept for. -/
theorem decision_changes_one_file (engine : Engine DirectoryStore) (session : String)
    (decision : Decision) (live : LiveAction) (now : Instant) :
    let player := decision.player
    let after := (engine.decide session decision live now).2.store
    (∃ owner,
      (owner = player ∨
        (∃ slot, engine.slot? player = some slot ∧ slot.record.player = owner) ∨
        ∃ record, engine.store.find? player = .ok (some record) ∧ record.player = owner) ∧
      ∀ name, name ≠ FileName.record owner → name ≠ FileName.temporary owner →
        after.files[name]? = engine.store.files[name]?) ∧
    ((∀ slot, engine.slot? player = some slot → slot.record.player = player) →
      (∀ record, engine.store.find? player = .ok (some record) → record.player = player) →
      ∀ other, other ≠ player →
        after.files[FileName.record other]? = engine.store.files[FileName.record other]?) := by
  intro player after
  let opened := engine.ensureSession session player now
  have hslot : opened.slot? player = engine.slot? player := by
    simp only [opened, ensureSession]
    split <;> rfl
  have hstore : opened.store = engine.store :=
    congrArg Holdings.store (engine.holdings_ensureSession session player now)
  have hsame := DirectoryStore.SameBut.of_effects (engine.effects_decide session decision live now)
  have howner := opened.player_load player now
  have hfind : (opened.fetch player).1 = engine.store.find? player := by
    rw [← hstore]
    rfl
  rw [hslot, hfind] at howner
  refine ⟨⟨_, howner, hsame⟩, fun hcached hstored other hother => hsame.file_eq ?_⟩
  rcases howner with hnew | ⟨slot, hslot, hnames⟩ | ⟨record, hfound, hnames⟩
  · exact fun heq => hother (heq.trans hnew)
  · exact fun heq => hother (heq.trans (hnames.symm.trans (hcached slot hslot)))
  · exact fun heq => hother (heq.trans (hnames.symm.trans (hstored record hfound)))

/-- The file of a player that holds the record of another: the other's file is written. -/
theorem decision_changes_file_of_other :
    let guest := PlayerRecord.fresh "bo" .epoch
    let store : DirectoryStore :=
      { path := "players"
        files := .ofList [(FileName.record "ana", DirectoryStore.print guest),
          (FileName.record "bo", DirectoryStore.print guest)] }
    let decision : Decision := { player := "ana", hand := 1, street := .preflop }
    let after := ((launch store {} none).decide "s" decision { action := .fold } .epoch).2.store
    after.files[FileName.record "bo"]? ≠ store.files[FileName.record "bo"]? := by
  decide +kernel

end Engine

end PokerCoach
