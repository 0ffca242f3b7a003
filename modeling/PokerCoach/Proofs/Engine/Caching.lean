import PokerCoach.Proofs.Engine.Desk

/-!
# Loading and releasing

A load leaves a cached record alone unless it only stands in for one that could not be read. From
then on the stored record wins over the one in memory, and that one over a new record; what comes
out is set up, cached, and written if it differs from what is stored. A release writes a durable
record before it drops it.
-/

namespace PokerCoach

open Std Time

/-- A record that was set up while it was loaded, and what that opened and created. -/
def Loaded.setUp (base : PlayerRecord) (curriculum : Curriculum) (now : Instant)
    (durable persisted : Bool) : Loaded where
  slot := ⟨base.setUp curriculum now, durable⟩
  unlocked := if (base.ensureEntryGate now).2 then [1] else []
  backfilled := ((base.ensureEntryGate now).1.backfill curriculum now).2
  persisted := persisted

namespace Desk

/-- The record that a load starts from if the store can be read. -/
def basis (desk : Desk) (player : String) (now : Instant) : PlayerRecord :=
  (desk.stored.or (desk.cached.map Slot.record)).getD (.fresh player now)

/-- Nothing is cached that would make a read needless. -/
def NeedsRead (desk : Desk) : Prop :=
  ∀ slot, desk.cached = some slot → slot.durable = false

/-- What a load may find on a desk, what it tells, and the desk that it leaves. -/
inductive Loads (curriculum : Curriculum) (player : String) (now : Instant) (desk : Desk) :
    Loaded → Desk → Prop
  | durable (record : PlayerRecord) (hcached : desk.cached = some ⟨record, true⟩) :
      Loads curriculum player now desk { slot := ⟨record, true⟩ } desk
  | unread (record : PlayerRecord) (hcached : desk.cached = some ⟨record, false⟩) :
      Loads curriculum player now desk { slot := ⟨record, false⟩ } (desk.read player false)
  | standIn (loaded : Loaded) (hcached : desk.cached = none)
      (hloaded : loaded = .setUp (.fresh player now) curriculum now false true) :
      Loads curriculum player now desk loaded ((desk.read player false).hold loaded.slot)
  | unchanged (record : PlayerRecord) (hneeds : desk.NeedsRead)
      (hstored : desk.stored = some record) (hset : record.IsSetUp curriculum) :
      Loads curriculum player now desk { slot := ⟨record, true⟩ }
        ((desk.read player true).hold ⟨record, true⟩)
  | changed (loaded : Loaded) (hneeds : desk.NeedsRead)
      (hloaded : loaded = .setUp (desk.basis player now) curriculum now true loaded.persisted) :
      Loads curriculum player now desk loaded
        (((desk.read player true).hold loaded.slot).write loaded.slot.record loaded.persisted)

/-- What a release may find on a desk and the desk that it leaves. -/
inductive Releases (desk : Desk) : Desk → Prop
  | absent (hcached : desk.cached = none) : Releases desk desk
  | saved (record : PlayerRecord) (hcached : desk.cached = some ⟨record, true⟩) :
      Releases desk (desk.write record true).clear
  | kept (record : PlayerRecord) (hcached : desk.cached = some ⟨record, true⟩) :
      Releases desk (desk.write record false)
  | forgotten (record : PlayerRecord) (hcached : desk.cached = some ⟨record, false⟩) :
      Releases desk desk.clear

namespace Loads

variable {curriculum : Curriculum} {player : String} {now : Instant} {desk after : Desk}
  {loaded : Loaded}

theorem cached_eq (hloads : desk.Loads curriculum player now loaded after) :
    after.cached = some loaded.slot := by
  cases hloads with
  | durable record hcached => exact hcached
  | unread record hcached => exact hcached
  | _ => rfl

end Loads

theorem Keyed.player_basis {desk : Desk} {player : String} (hkeyed : desk.Keyed player)
    (now : Instant) : (desk.basis player now).player = player := by
  unfold basis
  cases hstored : desk.stored with
  | some record => simpa using hkeyed.stored record hstored
  | none =>
      cases hcached : desk.cached with
      | some slot => simpa using hkeyed.cached slot hcached
      | none => rfl

/-- A load leaves nothing but what was there and the record that it set up. -/
theorem Loads.all_of_setUp {curriculum : Curriculum} {player : String} {now : Instant}
    {desk after : Desk} {loaded : Loaded} {holds : PlayerRecord → Prop}
    (hloads : desk.Loads curriculum player now loaded after)
    (hfresh : holds ((PlayerRecord.fresh player now).setUp curriculum now))
    (hbasis : holds ((desk.basis player now).setUp curriculum now)) (hall : desk.All holds) :
    after.All holds := by
  cases hloads with
  | durable record hcached => exact hall
  | unread record hcached => exact hall.read player false
  | standIn loaded hcached hloaded =>
      subst hloaded
      exact (hall.read player false).hold hfresh
  | unchanged record hneeds hstored hset =>
      exact (hall.read player true).hold (hall.stored record hstored)
  | changed loaded hneeds hloaded =>
      have hrecord : holds loaded.slot.record := by
        rw [hloaded]
        exact hbasis
      exact ((hall.read player true).hold hrecord).write hrecord loaded.persisted

theorem Releases.all {desk after : Desk} {holds : PlayerRecord → Prop}
    (hreleases : desk.Releases after) (hall : desk.All holds) : after.All holds := by
  cases hreleases with
  | absent hcached => exact hall
  | saved record hcached => exact (hall.write (hall.cached _ hcached) true).clear
  | kept record hcached => exact hall.write (hall.cached _ hcached) false
  | forgotten record hcached => exact hall.clear

theorem Loads.keyed {curriculum : Curriculum} {player : String} {now : Instant} {desk after : Desk}
    {loaded : Loaded} (hloads : desk.Loads curriculum player now loaded after)
    (hkeyed : desk.Keyed player) : after.Keyed player := by
  have hsetUp (base : PlayerRecord) (hbase : base.player = player) :
      (base.setUp curriculum now).player = player :=
    (base.setUp_extends curriculum now).player.trans hbase
  exact keyed_iff_all.mpr <|
    hloads.all_of_setUp (hsetUp _ rfl) (hsetUp _ (hkeyed.player_basis now)) (keyed_iff_all.mp hkeyed)

end Desk

namespace PlayerRecord

variable (record : PlayerRecord) (curriculum : Curriculum) (now : Instant)

theorem isSetUp_of_nothing_done (hentry : (record.ensureEntryGate now).2 = false)
    (hrows : ((record.ensureEntryGate now).1.backfill curriculum now).2 = []) :
    record.IsSetUp curriculum := by
  rw [snd_backfill] at hrows
  unfold ensureEntryGate at hentry hrows
  by_cases hopen : record.isUnlocked 1 = true
  · exact ⟨hopen, by simpa [hopen] using hrows⟩
  · simp [hopen] at hentry

variable {record curriculum} in
theorem IsSetUp.loaded_eq (hset : record.IsSetUp curriculum) (durable persisted : Bool) :
    Loaded.setUp record curriculum now durable persisted =
      { slot := ⟨record, durable⟩, persisted } := by
  simp [Loaded.setUp, hset.setUp_eq, hset.ensureEntryGate_eq, snd_backfill, hset.2]

end PlayerRecord

namespace Engine

section Install

variable {σ : Type} [RecordStore σ] (engine : Engine σ)

theorem not_isSetUp_fresh (player : String) (now : Instant) (curriculum : Curriculum) :
    ¬ (PlayerRecord.fresh player now).IsSetUp curriculum := by
  simp [PlayerRecord.IsSetUp]

theorem install_of_changed {player : String} {source : Source} {now : Instant}
    (hdurable : source.isDurable = true)
    (hchanged : source.isPromoted = true ∨
      ¬ (source.record player now).IsSetUp engine.curriculum) :
    ∃ happenings : List Happening,
      let record := (source.record player now).setUp engine.curriculum now
      let written := (engine.emitAll happenings now).persist record now
      engine.install player source now =
        (.setUp (source.record player now) engine.curriculum now true written.1,
          written.2.cache player ⟨record, true⟩) := by
  refine ⟨setupHappenings player ((source.record player now).ensureEntryGate now).2
    (((source.record player now).ensureEntryGate now).1.backfill engine.curriculum now).2, ?_⟩
  have hneeded : (source.isPromoted || ((source.record player now).ensureEntryGate now).2 ||
      !(((source.record player now).ensureEntryGate now).1.backfill
        engine.curriculum now).2.isEmpty) = true := by
    by_contra hnot
    simp only [Bool.or_eq_true, not_or, Bool.not_eq_true, Bool.not_eq_false',
      List.isEmpty_iff] at hnot
    obtain ⟨⟨hpromoted, hentry⟩, hrows⟩ := hnot
    refine hchanged.elim (fun h => by simp [h] at hpromoted) fun hset => hset ?_
    exact PlayerRecord.isSetUp_of_nothing_done _ _ now hentry hrows
  simp only [install, hdurable, hneeded, if_true]
  rfl

/-- A durable record is installed as it is if it is stored and set up, and written otherwise. -/
theorem install_durable {player : String} {source : Source} {now : Instant}
    (hdurable : source.isDurable = true) :
    (∃ record, source = .stored record ∧ record.IsSetUp engine.curriculum ∧
      engine.install player source now =
        ({ slot := ⟨record, true⟩ }, engine.cache player ⟨record, true⟩)) ∨
      ∃ happenings : List Happening,
        let record := (source.record player now).setUp engine.curriculum now
        let written := (engine.emitAll happenings now).persist record now
        engine.install player source now =
          (.setUp (source.record player now) engine.curriculum now true written.1,
            written.2.cache player ⟨record, true⟩) := by
  cases source with
  | stored record =>
      by_cases hset : record.IsSetUp engine.curriculum
      · refine .inl ⟨record, rfl, hset, ?_⟩
        simp [install, Source.record, Source.isDurable, Source.isPromoted, setupHappenings,
          hset.ensureEntryGate_eq, PlayerRecord.backfill_eq_of_missing _ _ _ hset.2, emitAll]
      · exact .inr (engine.install_of_changed hdurable (.inr hset))
  | promoted record => exact .inr (engine.install_of_changed hdurable (.inl rfl))
  | new => exact .inr (engine.install_of_changed hdurable (.inr (not_isSetUp_fresh player now _)))
  | unread => exact absurd hdurable (by decide)

end Install

section Load

variable {σ : Type} [RecordStore σ] [LawfulStore σ] (engine : Engine (TracedStore σ))

/-- A source is where the desk says that the record comes from. -/
theorem loads_install {player : String} {now : Instant} {desk : Desk} {source : Source}
    (hdesk : engine.desk player = desk.read player true) (hneeds : desk.NeedsRead)
    (hkeyed : desk.Keyed player) (hdurable : source.isDurable = true)
    (hbasis : source.record player now = desk.basis player now)
    (hstored : ∀ record, source = .stored record → desk.stored = some record) :
    desk.Loads engine.curriculum player now (engine.install player source now).1
      ((engine.install player source now).2.desk player) := by
  rcases engine.install_durable hdurable with
    ⟨record, hsource, hset, hinstall⟩ | ⟨happenings, hinstall⟩
  · rw [hinstall, desk_cache, if_pos rfl, hdesk]
    exact .unchanged record hneeds (hstored record hsource) hset
  · have howner : ((desk.basis player now).setUp engine.curriculum now).player = player := by
      rw [((desk.basis player now).setUp_extends engine.curriculum now).player,
        hkeyed.player_basis now]
    rw [hinstall, hbasis, desk_cache, if_pos rfl, desk_persist, if_pos howner, desk_emitAll, hdesk]
    exact .changed _ hneeds rfl

/-- What is stored wins, whatever was kept in memory. -/
theorem loads_install_stored {player : String} {now : Instant} {desk : Desk} {record : PlayerRecord}
    (hdesk : engine.desk player = desk.read player true) (hneeds : desk.NeedsRead)
    (hkeyed : desk.Keyed player) (hstored : desk.stored = some record) :
    desk.Loads engine.curriculum player now (engine.install player (.stored record) now).1
      ((engine.install player (.stored record) now).2.desk player) := by
  have hbasis : record = desk.basis player now := by simp [Desk.basis, hstored]
  refine engine.loads_install hdesk hneeds hkeyed rfl hbasis ?_
  rintro other ⟨⟩
  exact hstored

theorem loads_load {player : String} (hkeyed : (engine.desk player).Keyed player) (now : Instant) :
    (engine.desk player).Loads engine.curriculum player now (engine.load player now).1
      ((engine.load player now).2.desk player) := by
  have hfetched := engine.desk_fetch player player
  rw [if_pos rfl] at hfetched
  have hcurriculum : (engine.fetch player).2.curriculum = engine.curriculum := rfl
  have hfound := engine.fetch_eq player
  rcases hfetch : engine.fetch player with ⟨found, fetched⟩
  rw [hfetch] at hfetched hcurriculum hfound
  dsimp only at hfetched hcurriculum hfound
  unfold load
  split
  · rename_i record hslot
    exact .durable record hslot
  · rename_i kept hslot
    have hneeds : (engine.desk player).NeedsRead := by
      rintro slot hcached
      cases hslot.symm.trans hcached
      rfl
    rw [hfetch]
    rcases hfound with rfl | ⟨error, rfl⟩
    · rw [← hcurriculum]
      cases hstored : (engine.desk player).stored with
      | some record => exact fetched.loads_install_stored hfetched hneeds hkeyed hstored
      | none =>
          have hbasis : (engine.desk player).basis player now = kept := by
            simp [Desk.basis, hstored, show (engine.desk player).cached = _ from hslot]
          exact fetched.loads_install hfetched hneeds hkeyed rfl hbasis.symm (by simp)
    · rw [hfetched]
      exact .unread kept hslot
  · rename_i hslot
    have hneeds : (engine.desk player).NeedsRead := fun slot hcached => by
      cases hslot.symm.trans hcached
    rw [hfetch]
    rcases hfound with rfl | ⟨error, rfl⟩
    · rw [← hcurriculum]
      cases hstored : (engine.desk player).stored with
      | some record => exact fetched.loads_install_stored hfetched hneeds hkeyed hstored
      | none =>
          have hbasis : (engine.desk player).basis player now = .fresh player now := by
            simp [Desk.basis, hstored, show (engine.desk player).cached = _ from hslot]
          exact fetched.loads_install hfetched hneeds hkeyed rfl hbasis.symm (by simp)
    · change fetched.desk player = (engine.desk player).read player false at hfetched
      have hdesk : ((fetched.track error now).install player .unread now).2.desk player =
          ((engine.desk player).read player false).hold
            ((fetched.track error now).install player .unread now).1.slot := by
        rw [← hfetched]
        exact (desk_cache _ player _ player).trans (if_pos rfl)
      dsimp only
      rw [hdesk, ← hcurriculum]
      exact .standIn _ hslot rfl

/-! ### The other desks -/

theorem desk_install_of_ne {player other : String} {source : Source} {now : Instant}
    (howner : (source.record player now).player ≠ other) (hne : player ≠ other) :
    (engine.install player source now).2.desk other = engine.desk other := by
  cases hdurable : source.isDurable with
  | true =>
      rcases engine.install_durable hdurable with ⟨record, -, -, hinstall⟩ | ⟨happenings, hinstall⟩
      · rw [hinstall, desk_cache, if_neg hne]
      · have hrecord : ((source.record player now).setUp engine.curriculum now).player ≠ other := by
          rwa [((source.record player now).setUp_extends engine.curriculum now).player]
        rw [hinstall, desk_cache, if_neg hne, desk_persist, if_neg hrecord, desk_emitAll]
  | false =>
      cases source with
      | unread => exact (desk_cache _ player _ other).trans (if_neg hne)
      | _ => cases hdurable

theorem desk_load_of_ne {player other : String}
    (hall : (engine.desk player).All fun record => record.player ≠ other) (now : Instant)
    (hne : player ≠ other) : (engine.load player now).2.desk other = engine.desk other := by
  have hfetched := engine.desk_fetch player other
  rw [if_neg hne] at hfetched
  have hfound := engine.fetch_eq player
  rcases hfetch : engine.fetch player with ⟨found, fetched⟩
  rw [hfetch] at hfetched hfound
  dsimp only at hfetched hfound
  have hstored : ∀ record, found = .ok (some record) → record.player ≠ other := by
    rintro record rfl
    rcases hfound with hok | ⟨error, herror⟩
    · exact hall.stored record (Except.ok.inj hok).symm
    · cases herror
  have hnew : (Source.new.record player now).player ≠ other := hne
  have hunread : (Source.unread.record player now).player ≠ other := hne
  unfold load
  split
  · rfl
  · rename_i kept hslot
    have hkept : ((Source.promoted kept).record player now).player ≠ other := hall.cached _ hslot
    rw [hfetch]
    dsimp only
    split
    · rw [fetched.desk_install_of_ne (hstored _ rfl) hne, hfetched]
    · rw [fetched.desk_install_of_ne hkept hne, hfetched]
    · exact hfetched
  · rw [hfetch]
    dsimp only
    split
    · rw [fetched.desk_install_of_ne (hstored _ rfl) hne, hfetched]
    · rw [fetched.desk_install_of_ne hnew hne, hfetched]
    · rw [desk_install_of_ne _ hunread hne, desk_track, hfetched]

end Load

section Release

variable {σ : Type} [RecordStore σ] [LawfulStore σ] (engine : Engine (TracedStore σ))

theorem release_eq_of_durable {player : String} {record : PlayerRecord}
    (hslot : engine.slot? player = some ⟨record, true⟩) (now : Instant) :
    engine.release player now =
      let (saved, written) := engine.persist record now
      if saved then { written with players := written.players.erase player } else written := by
  simp [release, hslot]

theorem release_eq_of_forgotten {player : String} {record : PlayerRecord}
    (hslot : engine.slot? player = some ⟨record, false⟩) (now : Instant) :
    engine.release player now = { engine with players := engine.players.erase player } := by
  simp [release, hslot]

theorem release_eq_of_absent {player : String} (hslot : engine.slot? player = none)
    (now : Instant) : engine.release player now = engine := by
  simp [release, hslot]

theorem releases_release {player : String} (hkeyed : (engine.desk player).Keyed player)
    (now : Instant) : (engine.desk player).Releases ((engine.release player now).desk player) := by
  cases hslot : engine.slot? player with
  | none =>
      rw [engine.release_eq_of_absent hslot]
      exact .absent hslot
  | some slot =>
      rcases slot with ⟨record, durable⟩
      have howner : record.player = player := hkeyed.cached _ hslot
      cases durable with
      | false =>
          rw [engine.release_eq_of_forgotten hslot, desk_erase, if_pos rfl]
          exact .forgotten record hslot
      | true =>
          have hwritten := engine.desk_persist record now player
          rw [if_pos howner] at hwritten
          rw [engine.release_eq_of_durable hslot]
          rcases hpersist : engine.persist record now with ⟨_ | _, written⟩
          · rw [hpersist] at hwritten
            exact hwritten ▸ .kept record hslot
          · rw [hpersist] at hwritten
            have herased := written.desk_erase player player
            rw [if_pos rfl, hwritten] at herased
            exact herased ▸ .saved record hslot

theorem desk_release_of_ne {player other : String} (hkeyed : (engine.desk player).Keyed player)
    (now : Instant) (hne : player ≠ other) :
    (engine.release player now).desk other = engine.desk other := by
  cases hslot : engine.slot? player with
  | none => rw [engine.release_eq_of_absent hslot]
  | some slot =>
      rcases slot with ⟨record, durable⟩
      have howner : record.player = player := hkeyed.cached _ hslot
      cases durable with
      | false => rw [engine.release_eq_of_forgotten hslot, desk_erase, if_neg hne]
      | true =>
          have hwritten := engine.desk_persist record now other
          rw [if_neg (howner ▸ hne)] at hwritten
          rw [engine.release_eq_of_durable hslot]
          rcases hpersist : engine.persist record now with ⟨_ | _, written⟩
          · rw [hpersist] at hwritten
            exact hwritten
          · rw [hpersist] at hwritten
            exact (written.desk_erase player other).trans ((if_neg hne).trans hwritten)

end Release

section Course

variable {σ : Type} [RecordStore σ] (engine : Engine σ)

@[simp]
theorem course_install (player : String) (source : Source) (now : Instant) :
    (engine.install player source now).2.course = engine.course := by
  cases hdurable : source.isDurable with
  | true =>
      rcases engine.install_durable hdurable with ⟨record, -, -, hinstall⟩ | ⟨happenings, hinstall⟩
      · rw [hinstall]
        rfl
      · rw [hinstall]
        exact (course_persist _ _ now).trans (engine.course_emitAll happenings now)
  | false =>
      cases source with
      | unread => rfl
      | _ => cases hdurable

@[simp]
theorem course_load (player : String) (now : Instant) :
    (engine.load player now).2.course = engine.course := by
  unfold load
  split
  · rfl
  all_goals
    dsimp only
    split
    · exact course_install _ player _ now
    · exact course_install _ player _ now
  · rfl
  · exact course_install _ player _ now

@[simp]
theorem course_release (player : String) (now : Instant) :
    (engine.release player now).course = engine.course := by
  unfold release
  split
  · rfl
  · rename_i slot _
    cases hdurable : slot.durable with
    | false => simp [course]
    | true =>
        have hcourse := engine.course_persist slot.record now
        simp only [if_true]
        split <;> exact hcourse

end Course

end Engine

end PokerCoach
