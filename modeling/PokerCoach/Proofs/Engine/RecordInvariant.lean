import PokerCoach.Proofs.Progress.EveryRow
import PokerCoach.Proofs.Progress.Sound
import PokerCoach.Proofs.Engine.Run

/-!
# Invariants of records

An engine makes new records, sets them up and learns on them, and does nothing else to a record. So
what all of this keeps holds of every record in a run, wherever it lies.
-/

namespace PokerCoach

open Std Time

/-- What holds of every new record that is set up for a curriculum, and is kept by setting up again
and by every lesson. -/
structure RecordInvariant (curriculum : Curriculum) (holds : PlayerRecord → Prop) : Prop where
  fresh : ∀ player now, holds ((PlayerRecord.fresh player now).setUp curriculum now)
  onboard : ∀ player now experience record rows,
    (PlayerRecord.fresh player now).onboard? curriculum experience now = some (record, rows) →
    holds record
  setUp : ∀ record now, holds record → holds (record.setUp curriculum now)
  learn : ∀ record skill outcome marginalCredit now, holds record →
    curriculum.skill? skill.id = some skill → record.ComesUp curriculum skill.id →
    outcome.isApplicable → holds (record.learn curriculum skill outcome marginalCredit now)

namespace Desk

variable {curriculum : Curriculum} {holds : PlayerRecord → Prop}
  (hinv : RecordInvariant curriculum holds)
include hinv

theorem All.setUp_basis {desk : Desk} (hall : desk.All holds) (player : String) (now : Instant) :
    holds ((desk.basis player now).setUp curriculum now) := by
  unfold basis
  cases hstored : desk.stored with
  | some record => exact hinv.setUp record now (hall.stored record hstored)
  | none =>
      cases hcached : desk.cached with
      | some slot => exact hinv.setUp slot.record now (hall.cached slot hcached)
      | none => exact hinv.fresh player now

theorem Loads.all {player : String} {now : Instant} {desk after : Desk} {loaded : Loaded}
    (hloads : desk.Loads curriculum player now loaded after) (hall : desk.All holds) :
    after.All holds :=
  hloads.all_of_setUp (hinv.fresh player now) (hall.setUp_basis hinv player now) hall

theorem Move.all {player : String} {desk after : Desk} (hmove : desk.Move curriculum player after)
    (hall : desk.All holds) : after.All holds := by
  cases hmove with
  | read worked => exact hall.read player worked
  | load now hloads => exact hloads.all hinv hall
  | learn slot skill outcome marginalCredit now worked hcached hskill happlicable hcomes =>
      exact hall.save (hinv.learn _ skill outcome marginalCredit now (hall.cached slot hcached)
        hskill hcomes happlicable) worked
  | release hreleases => exact hreleases.all hall
  | onboard experience now hcached hstored honboard =>
      have hrecord := hinv.onboard _ _ _ _ _ honboard
      exact ((hall.read player true).write hrecord true).hold hrecord
  | decline experience now hcached hstored honboard =>
      exact (hall.read player true).write (hinv.onboard _ _ _ _ _ honboard) false

end Desk

namespace Engine

variable {σ : Type} [RecordStore σ] [LawfulStore σ]

theorem Keyed.all_step {engine : Engine (TracedStore σ)} (hkeyed : engine.Keyed)
    {holds : PlayerRecord → Prop} (hinv : RecordInvariant engine.curriculum holds)
    {operation : Operation} (hgoes : operation.restarts? = none) {player : String}
    (hall : (engine.desk player).All holds) : ((engine.step operation).desk player).All holds :=
  (hkeyed.moves_step hgoes player).keeps (fun _ _ hmove => hmove.all hinv) hall

/-- An invariant of all curricula taught in a run holds everywhere if it held in the beginning. -/
theorem Keyed.all_run {engine : Engine (TracedStore σ)} (hkeyed : engine.Keyed)
    {holds : PlayerRecord → Prop} {operations : List Operation}
    (htaught : ∀ operation ∈ operations, ∀ course, operation.restarts? = some course →
      RecordInvariant course.curriculum holds)
    (hinv : RecordInvariant engine.curriculum holds) {player : String}
    (hall : (engine.desk player).All holds) : ((engine.run operations).desk player).All holds :=
  hkeyed.desk_run player (fun desk => desk.All holds)
    (fun curriculum => RecordInvariant curriculum holds)
    (fun _ _ _ hinv hmove => hmove.all hinv) (fun _ => Desk.All.clear) htaught hinv hall

/-- On a store that was empty, an invariant of the one curriculum taught holds everywhere. -/
theorem all_reached {store : σ} (hempty : ∀ player, held store player = none) {course : Course}
    {holds : PlayerRecord → Prop} (hinv : RecordInvariant course.curriculum holds)
    (journal : Option Journal) {operations : List Operation}
    (htaught : ∀ operation ∈ operations, ∀ other, operation.restarts? = some other →
      other.curriculum = course.curriculum) (player : String) :
    ((reached store course journal operations).desk player).All holds := by
  refine (keyed_launch_of_empty hempty course journal).all_run ?_ hinv ?_
  · intro operation hmem other hrestarts
    rw [htaught operation hmem other hrestarts]
    exact hinv
  · exact all_launch (hempty player) course journal holds

end Engine

namespace PlayerRecord

/-- What holds of new rows and after each outcome that applies holds of all rows. -/
theorem invariant_everyRow {curriculum : Curriculum} {holds : String → SkillRow → Prop}
    (hfresh : ∀ id level now, holds id (.fresh id level now))
    (hrecorded : ∀ (skill : Skill) (row : SkillRow) outcome marginalCredit now,
      curriculum.skill? skill.id = some skill → outcome.isApplicable = true →
      holds skill.id (row.record outcome skill.evidence marginalCredit now).1) :
    RecordInvariant curriculum fun record => record.EveryRow holds where
  fresh player now := (everyRow_fresh player now).setUp hfresh curriculum now
  onboard _ _ _ _ _ honboard := everyRow_of_onboard? hfresh honboard
  setUp _ now hevery := hevery.setUp hfresh curriculum now
  learn _ skill outcome marginalCredit now hevery hskill _ happlies :=
    (hevery.practice (hrecorded skill _ outcome marginalCredit now hskill happlies)).advance hfresh
      curriculum skill.id now

theorem invariant_sound {curriculum : Curriculum} (hwell : curriculum.WellFormed)
    (hgates : curriculum.gates ≠ []) :
    RecordInvariant curriculum fun record => record.Sound curriculum where
  fresh player now := (opened_fresh player now).setUp hwell hgates now
  onboard _ _ _ _ _ honboard := sound_of_onboard? hwell hgates honboard
  setUp _ now hsound := by rwa [hsound.setUp_eq now]
  learn _ _ outcome marginalCredit now hsound hskill hcomes _ :=
    hsound.learn hwell hskill hcomes outcome marginalCredit now

end PlayerRecord

namespace Engine

variable {σ : Type} [RecordStore σ] [LawfulStore σ]

/-- Every record that a run leaves in the cache or in the store, whatever fails, has the gates from
the first up to one of them, all open, exactly the rows of their skills, and in each row a window of
outcomes that apply, as many as were counted up to its size, and no move before enough of them. -/
theorem records_sound (store : σ) (hempty : ∀ player, held store player = none) (course : Course)
    (haccepted : course.curriculum.Accepted) (hgates : course.curriculum.gates ≠ [])
    (journal : Option Journal) (operations : List Operation)
    (htaught : ∀ operation ∈ operations, ∀ other, operation.restarts? = some other →
      other.curriculum = course.curriculum)
    (player : String) (record : PlayerRecord)
    (hrecord : (∃ durable, (reached store course journal operations).slot? player =
        some ⟨record, durable⟩) ∨
      held (reached store course journal operations).store player = some record) :
    (∃ last : UInt32, 1 ≤ last ∧ last ≤ course.curriculum.lastGate ∧
      (∀ gate, gate ∈ record.gates ↔ 1 ≤ gate ∧ gate ≤ last) ∧
      (∀ (gate : UInt32) (entry : GateEntry), record.gates[gate]? = some entry → entry.unlocked) ∧
      ∀ id, id ∈ record.skills ↔
        ∃ gate ∈ course.curriculum.gates, gate.number ≤ last ∧ id ∈ gate.skillIds) ∧
    ∀ (id : String) (row : SkillRow), record.skills[id]? = some row → row.skill = id ∧
      ∃ skill, course.curriculum.skill? id = some skill ∧
        (∀ outcome ∈ row.window, outcome.isApplicable) ∧
        (∃ n, row.opportunities.toNat = min n (2 ^ 32 - 1) ∧
          row.window.length = min n skill.evidence.windowSize.toNat) ∧
        (row.opportunities < skill.evidence.minOpportunities → row.lastTransitionAt = none) := by
  have hwell := haccepted.wellFormed
  have hall := all_reached hempty (PlayerRecord.invariant_sound hwell hgates) journal htaught player
  obtain ⟨frontier, hsound⟩ : record.Sound course.curriculum := by
    rcases hrecord with ⟨durable, hcached⟩ | hstored
    · exact hall.cached _ hcached
    · exact hall.stored _ hstored
  have hbounded : frontier ≤ course.curriculum.lastGate.toNat :=
    hwell.toNat_lastGate ▸ hsound.bounded
  obtain ⟨last, rfl⟩ : ∃ last : UInt32, last.toNat = frontier :=
    ⟨.ofNat frontier,
      UInt32.toNat_ofNat_of_lt' (Nat.lt_of_le_of_lt hbounded course.curriculum.lastGate.toNat_lt)⟩
  simp only [UInt32.le_iff_toNat_le, ExtTreeMap.mem_iff_isSome_getElem?]
  refine ⟨⟨last, hsound.entry, hbounded, fun gate => hsound.entries gate, hsound.opened,
    fun id => hsound.isSome_row?_iff hwell⟩, fun id row hrow => ?_⟩
  obtain ⟨hname, skill, hskill, hrow⟩ := hsound.sound_row hwell hrow
  exact ⟨hname, skill, hskill, hrow.applicable, hrow.counted, hrow.unsettled⟩

/-- A beginner whose onboarding could not be written folds more trash than the window holds, and
raises less often than a move takes. -/
theorem records_sound_of_folds_and_raises :
    let store : FaultyStore MemoryStore := { inner := .empty, writeFails := fun write => write = 0 }
    let decision (flags : HandFlags) : Decision :=
      { player := "ana", hand := 1, street := .preflop, flags }
    let fold : Operation := .decide "s" (decision { trash := true }) { action := .fold } .epoch
    let raise : Operation := .decide "s" (decision { premium := true }) { action := .raise } .epoch
    let operations : List Operation :=
      .onboard "ana" .beginner .epoch :: List.replicate 32 fold ++ List.replicate 3 raise ++
        [.restart {} none]
    ∃ record folds raises,
      held (reached store {} none operations).store "ana" = some record ∧
      (∃ last : UInt32, 1 ≤ last ∧ last ≤ Curriculum.standard.lastGate ∧
        ∀ gate, gate ∈ record.gates ↔ 1 ≤ gate ∧ gate ≤ last) ∧
      record.skills["fold_trash_preflop"]? = some folds ∧ folds.opportunities = 32 ∧
      folds.window.length = 30 ∧ (∀ outcome ∈ folds.window, outcome.isApplicable) ∧
      folds.lastTransitionAt.isSome ∧
      record.skills["raise_premium_preflop"]? = some raises ∧ raises.opportunities = 3 ∧
      raises.window.length = 3 ∧ raises.lastTransitionAt = none := by
  intro store decision fold raise operations
  have hrun : ((held (reached store {} none operations).store "ana").any fun record =>
      (record.skills["fold_trash_preflop"]?.any fun row =>
        row.opportunities = 32 && row.lastTransitionAt.isSome) &&
      record.skills["raise_premium_preflop"]?.any fun row => row.opportunities = 3) = true := by
    decide +kernel
  obtain ⟨record, hstored, hrows⟩ := (Option.any_eq_true _ _).mp hrun
  simp only [Bool.and_eq_true, Option.any_eq_true, decide_eq_true_eq] at hrows
  obtain ⟨⟨folds, hfolds, hthirtyTwo, hmoved⟩, raises, hraises, hthree⟩ := hrows
  have htaught : ∀ operation ∈ operations, ∀ other, operation.restarts? = some other →
      other.curriculum = .standard := by
    simp [operations, fold, raise, Operation.restarts?]
  obtain ⟨⟨last, hone, hlast, hgates, -⟩, hsound⟩ :=
    records_sound store MemoryStore.find?_empty {} (.inl rfl) (by decide) none operations htaught
      "ana" record (.inr hstored)
  obtain ⟨-, skill, hskill, happlicable, ⟨n, hcount, hlength⟩, -⟩ := hsound _ folds hfolds
  obtain ⟨-, other, hother, -, ⟨m, hfew, hshort⟩, hunsettled⟩ := hsound _ raises hraises
  obtain rfl : Skill.foldTrashPreflop = skill := Option.some.inj hskill
  obtain rfl : Skill.raisePremiumPreflop = other := Option.some.inj hother
  rw [hthirtyTwo] at hcount
  rw [hthree] at hfew hunsettled
  refine ⟨record, folds, raises, hstored, ⟨last, hone, hlast, hgates⟩, hfolds, hthirtyTwo, ?_,
    happlicable, hmoved, hraises, hthree, ?_, hunsettled (by decide)⟩
  · obtain rfl : n = 32 := by
      have : (32 : UInt32).toNat = 32 := rfl
      omega
    exact hlength
  · obtain rfl : m = 3 := by
      have : (3 : UInt32).toNat = 3 := rfl
      omega
    exact hshort

end Engine

end PokerCoach
