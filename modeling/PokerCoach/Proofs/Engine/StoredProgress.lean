import PokerCoach.Proofs.Engine.Run

/-!
# Stored progress only grows

The cached record of a player extends the stored one whenever it may be written. What was read in
vain is replaced by a record that only stands in for it and is never written, so that a write never
takes anything from a record, whatever fails and however often the engine is started again.
-/

namespace PokerCoach

open Std Time

namespace Desk

/-- No write took anything from a record, and none is about to. What was stored first is still
there. -/
structure Grows (desk : Desk) (first : Option PlayerRecord) : Prop where
  cached : ∀ record before, desk.cached = some ⟨record, true⟩ → desk.stored = some before →
    record.Extends before
  written : ∀ before record, Access.write (some before) record true ∈ desk.accesses →
    record.Extends before
  stored : ∀ record, first = some record →
    ∃ latest, desk.stored = some latest ∧ latest.Extends record

variable {first : Option PlayerRecord}

theorem Grows.read {desk : Desk} (hgrows : desk.Grows first) (player : String) (worked : Bool) :
    (desk.read player worked).Grows first where
  cached := hgrows.cached
  written before record hmem := hgrows.written before record (by simpa [Desk.read] using hmem)
  stored := hgrows.stored

theorem Grows.clear {desk : Desk} (hgrows : desk.Grows first) : desk.clear.Grows first where
  cached := by rintro _ _ ⟨⟩
  written := hgrows.written
  stored := hgrows.stored

theorem Grows.write {desk : Desk} (hgrows : desk.Grows first) {record : PlayerRecord}
    (hcached : ∀ other, desk.cached = some ⟨other, true⟩ → other = record)
    (hextends : ∀ before, desk.stored = some before → record.Extends before) (worked : Bool) :
    (desk.write record worked).Grows first where
  cached other before hother hbefore := by
    obtain rfl := hcached other hother
    cases worked with
    | true =>
        cases hbefore
        exact .refl _
    | false => exact hextends before hbefore
  written before other hmem := by
    rcases List.mem_append.mp hmem with hmem | hmem
    · exact hgrows.written before other hmem
    · simp only [List.mem_singleton, Access.write.injEq] at hmem
      obtain ⟨hbefore, rfl, -⟩ := hmem
      exact hextends before hbefore.symm
  stored original horiginal := by
    obtain ⟨latest, hlatest, hkeeps⟩ := hgrows.stored original horiginal
    cases worked with
    | true => exact ⟨record, rfl, (hextends latest hlatest).trans hkeeps⟩
    | false => exact ⟨latest, hlatest, hkeeps⟩

theorem Grows.hold {desk : Desk} (hgrows : desk.Grows first) {slot : Slot}
    (hextends : ∀ before, slot.durable = true → desk.stored = some before →
      slot.record.Extends before) : (desk.hold slot).Grows first where
  cached record before hcached hbefore := by
    cases hcached
    exact hextends before rfl hbefore
  written := hgrows.written
  stored := hgrows.stored

theorem Loads.grows {curriculum : Curriculum} {player : String} {now : Instant} {desk after : Desk}
    {loaded : Loaded} (hloads : desk.Loads curriculum player now loaded after)
    (hgrows : desk.Grows first) : after.Grows first := by
  cases hloads with
  | durable record hcached => exact hgrows
  | unread record hcached => exact hgrows.read player false
  | standIn loaded hcached hloaded =>
      refine (hgrows.read player false).hold fun before hdurable => ?_
      rw [hloaded] at hdurable
      cases hdurable
  | unchanged record hneeds hstored hset =>
      refine (hgrows.read player true).hold fun before _ hbefore => ?_
      cases hstored.symm.trans hbefore
      exact .refl _
  | changed loaded hneeds hloaded =>
      have hextends (before : PlayerRecord) (hbefore : desk.stored = some before) :
          loaded.slot.record.Extends before := by
        have hbasis : desk.basis player now = before := by simp [basis, hbefore]
        rw [hloaded, hbasis]
        exact before.setUp_extends curriculum now
      refine ((hgrows.read player true).hold fun before _ => hextends before).write ?_ hextends _
      intro other hother
      exact congrArg Slot.record (Option.some.inj hother).symm

theorem Releases.grows {desk after : Desk} (hreleases : desk.Releases after)
    (hgrows : desk.Grows first) : after.Grows first := by
  have hwrite (record : PlayerRecord) (hcached : desk.cached = some ⟨record, true⟩)
      (worked : Bool) :
      (desk.write record worked).Grows first := by
    refine hgrows.write (fun other hother => ?_) (fun before => hgrows.cached record before hcached)
      worked
    cases hcached.symm.trans hother
    rfl
  cases hreleases with
  | absent hcached => exact hgrows
  | saved record hcached => exact (hwrite record hcached true).clear
  | kept record hcached => exact hwrite record hcached false
  | forgotten record hcached => exact hgrows.clear

theorem Grows.save {desk : Desk} (hgrows : desk.Grows first) {slot : Slot} {record : PlayerRecord}
    (hcached : desk.cached = some slot) (hextends : record.Extends slot.record) (worked : Bool) :
    (desk.save { slot with record } worked).Grows first := by
  have hbefore (before : PlayerRecord) (hdurable : slot.durable = true)
      (hstored : desk.stored = some before) : record.Extends before := by
    refine hextends.trans (hgrows.cached slot.record before ?_ hstored)
    rw [hcached, ← hdurable]
  have hheld : (desk.hold { slot with record }).Grows first := hgrows.hold hbefore
  unfold Desk.save
  split
  · rename_i hdurable
    refine hheld.write (fun other hother => ?_) (fun before => hbefore before hdurable) worked
    exact congrArg Slot.record (Option.some.inj hother).symm
  · exact hheld

theorem Move.grows {curriculum : Curriculum} {player : String} {desk after : Desk}
    (hmove : desk.Move curriculum player after) (hgrows : desk.Grows first) :
    after.Grows first := by
  cases hmove with
  | read worked => exact hgrows.read player worked
  | load now hloads => exact hloads.grows hgrows
  | learn slot skill outcome marginalCredit now worked hcached hskill happlicable hcomes =>
      exact hgrows.save hcached
        (slot.record.learn_extends curriculum now skill outcome marginalCredit) worked
  | release hreleases => exact hreleases.grows hgrows
  | @onboard record rows experience now hcached hstored honboard =>
      have hwritten : ((desk.read player true).write record true).Grows first :=
        (hgrows.read player true).write
          (fun other hother => by cases hcached.symm.trans hother)
          (fun before hbefore => by cases hstored.symm.trans hbefore) true
      refine hwritten.hold fun before _ hbefore => ?_
      cases hbefore
      exact .refl _
  | decline experience now hcached hstored honboard =>
      exact (hgrows.read player true).write
        (fun other hother => by cases hcached.symm.trans hother)
        (fun before hbefore => by cases hstored.symm.trans hbefore) false

theorem grows_launch (stored : Option PlayerRecord) : Desk.Grows ⟨none, stored, []⟩ stored where
  cached := by rintro _ _ ⟨⟩
  written := by rintro _ _ ⟨⟩
  stored record hstored := ⟨record, hstored, .refl record⟩

end Desk

namespace Engine

variable {σ : Type} [RecordStore σ] [LawfulStore σ]

/-- Over any store that keeps each record under its own player, whatever fails and whatever each
engine teaches that is started on it: a write that works extends the record it replaces, and what
was stored in the beginning is extended by what is stored in the end. -/
theorem stored_progress_grows (store : σ)
    (hstore : ∀ player record, held store player = some record → record.player = player)
    (course : Course) (journal : Option Journal) (operations : List Operation) :
    (∀ before record,
      Access.write (some before) record true ∈
        (reached store course journal operations).store.accesses → record.Extends before) ∧
    ∀ player record, held store player = some record →
      ∃ latest, held (reached store course journal operations).store player = some latest ∧
        latest.Extends record := by
  have hgrows (player : String) :
      ((reached store course journal operations).desk player).Grows (held store player) := by
    refine (keyed_launch hstore course journal).desk_run player
      (fun desk => desk.Grows (held store player)) (fun _ => True) ?_ ?_ ?_ ?_ ?_
    · exact fun _ _ _ _ hmove => hmove.grows
    · exact fun _ => Desk.Grows.clear
    · exact fun _ _ _ _ => trivial
    · trivial
    · rw [desk_launch]
      exact Desk.grows_launch _
  refine ⟨fun before record hmem => ?_, fun player => (hgrows player).stored⟩
  refine (hgrows record.player).written before record ?_
  exact List.mem_filter.mpr ⟨hmem, by simp [Access.player]⟩

/-- A record with an open gate and a practiced skill outlives a first read that fails. The write that
adds its missing rows extends it, and so does what is left after one more fold and a change of the
course. -/
theorem stored_progress_grows_over_outage :
    let folds : SkillRow :=
      { SkillRow.fresh "fold_trash_preflop" .practicing (.ofUnix 5 0) with
        window := [.correct, .marginal], opportunities := 12 }
    let stored : PlayerRecord :=
      ((PlayerRecord.fresh "ana" (.ofUnix 5 0)).setGate 1
        { unlocked := true, unlockedAt := some (.ofUnix 5 0) }).setRow folds.skill folds
    let store : FaultyStore MemoryStore :=
      { inner := .insert .empty stored, readFails := fun read => read = 0 }
    let decision : Decision :=
      { player := "ana", hand := 1, street := .preflop, flags := { trash := true } }
    let operations : List Operation :=
      [.decide "s" decision { action := .fold } (.ofUnix 20 0),
        .decide "s" decision { action := .fold } (.ofUnix 21 0),
        .restart { curriculum := ⟨[]⟩ } none,
        .decide "s" decision { action := .fold } (.ofUnix 22 0)]
    let filled := (stored.backfill .standard (.ofUnix 21 0)).1
    Access.write (some stored) filled true ∈
        (reached store {} none operations).store.accesses ∧
      filled.Extends stored ∧
      ∃ latest, held (reached store {} none operations).store "ana" = some latest ∧
        latest.Extends stored ∧
        (latest.row? folds.skill).map SkillRow.opportunities = some 13 := by
  intro folds stored store decision operations filled
  have hheld : held store "ana" = some stored :=
    (MemoryStore.empty.find?_insert stored "ana").trans (if_pos rfl)
  obtain ⟨hwritten, hkept⟩ := stored_progress_grows store
    (MemoryStore.player_of_held_insert (player_of_held_empty MemoryStore.find?_empty) stored) {}
    none operations
  have hfilled : Access.write (some stored) filled true ∈
      (reached store {} none operations).store.accesses := by decide +kernel
  have hcount : ((held (reached store {} none operations).store "ana").any fun record =>
      (record.row? folds.skill).map SkillRow.opportunities = some 13) = true := by decide +kernel
  obtain ⟨latest, hlatest, hextends⟩ := hkept "ana" stored hheld
  rw [hlatest, Option.any_some, decide_eq_true_eq] at hcount
  exact ⟨hfilled, hwritten stored filled hfilled, latest, hlatest, hextends, hcount⟩

end Engine

end PokerCoach
