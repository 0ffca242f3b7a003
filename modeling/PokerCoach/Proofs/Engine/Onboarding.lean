import PokerCoach.Proofs.Engine.Effects
import PokerCoach.Proofs.Engine.Run
import PokerCoach.Proofs.Progress.NewPlayer

/-!
# Onboarding is all or nothing, and happens once

An onboarding that is refused or fails leaves everything but the health of the store as it was. One
that works leaves the record of a new player in the store, and no record that is in a store ever
leaves it, so that no other onboarding of the player can work.
-/

namespace PokerCoach

open Std Time

namespace Engine

variable {σ : Type} [RecordStore σ]

/-! ### One onboarding -/

section Onboarding

variable {engine : Engine σ} {player : String} {experience : Experience} {now : Instant}
  {record : PlayerRecord} {rows : List Backfill}

theorem fst_write (engine : Engine σ) (record : PlayerRecord) (now : Instant) :
    (engine.write record now).1 = (RecordStore.put engine.store record).1 := by
  obtain ⟨health, hwrite⟩ := engine.exists_write_eq record now
  rw [hwrite]

/-- An onboarding works if the player is new to cache and store and the record can be written, and
not otherwise. -/
theorem isOk_onboard_iff
    (honboard : (PlayerRecord.fresh player now).onboard? engine.curriculum experience now =
      some (record, rows)) :
    (engine.onboard player experience now).1.isOk = true ↔
      engine.slot? player = none ∧ (RecordStore.get engine.store player).1 = .ok none ∧
        (RecordStore.put (RecordStore.get engine.store player).2 record).1 = .ok () := by
  have hput := (engine.fetch player).2.fst_write record now
  constructor
  · intro hok
    have honboards := engine.onboards_onboard player experience now
    generalize engine.onboard player experience now = result at honboards hok
    cases honboards with
    | started hcached hfound hstarted hwrite =>
        cases honboard.symm.trans hstarted
        exact ⟨hcached, hfound, hput.symm.trans hwrite⟩
    | _ => cases hok
  · rintro ⟨hcached, hfound, hwritten⟩
    have hfetched : (engine.fetch player).1 = .ok none := hfound
    have hstarts : (PlayerRecord.fresh player now).onboard? (engine.fetch player).2.curriculum
        experience now = some (record, rows) := honboard
    have hwrite := hput.trans hwritten
    simp only [onboard, hcached, Option.isSome_none, Bool.false_eq_true, if_false, hfetched,
      hstarts, hwrite]
    rfl

variable [LawfulStore σ]

theorem held_write_of_isOk {engine : Engine σ} {record : PlayerRecord} {now : Instant}
    (hwrite : (engine.write record now).1 = .ok ()) :
    held (engine.write record now).2.store record.player = some record := by
  obtain ⟨health, hwritten⟩ := engine.exists_write_eq record now
  rw [hwritten] at hwrite ⊢
  dsimp only at hwrite ⊢
  rw [LawfulStore.held_put, hwrite]
  exact if_pos ⟨rfl, rfl⟩

theorem held_write_of_error {engine : Engine σ} {record : PlayerRecord} {now : Instant}
    {error : Error} (hwrite : (engine.write record now).1 = .error error) (player : String) :
    held (engine.write record now).2.store player = held engine.store player := by
  obtain ⟨health, hwritten⟩ := engine.exists_write_eq record now
  rw [hwritten] at hwrite ⊢
  dsimp only at hwrite ⊢
  rw [LawfulStore.held_put, hwrite]
  exact if_neg fun hworked => by cases hworked.1

/-- Whoever is onboarded has the record in cache and store. -/
theorem holds_of_isOk_onboard
    (honboard : (PlayerRecord.fresh player now).onboard? engine.curriculum experience now =
      some (record, rows))
    (hok : (engine.onboard player experience now).1.isOk = true) :
    (engine.onboard player experience now).1 = .ok rows ∧
      held (engine.onboard player experience now).2.store player = some record ∧
        (engine.onboard player experience now).2.slot? player = some ⟨record, true⟩ := by
  have hplayer : record.player = player := PlayerRecord.player_of_onboard? _ _ now honboard
  have honboards := engine.onboards_onboard player experience now
  generalize engine.onboard player experience now = result at honboards hok ⊢
  cases honboards with
  | started hcached hfound hstarted hwrite =>
      cases honboard.symm.trans hstarted
      refine ⟨rfl, ?_, ExtTreeMap.getElem?_insert_self⟩
      have hheld := held_write_of_isOk hwrite
      rw [hplayer] at hheld
      simp only [cache]
      rwa [emitAll_eq]
  | _ => cases hok

/-- Whoever is not onboarded is not seen to have tried. -/
theorem eq_of_not_isOk_onboard (hfailed : (engine.onboard player experience now).1.isOk = false) :
    let after := (engine.onboard player experience now).2
    after = { engine with store := after.store, health := after.health } ∧
      ∀ other, held after.store other = held engine.store other := by
  have honboards := engine.onboards_onboard player experience now
  generalize engine.onboard player experience now = result at honboards hfailed ⊢
  cases honboards with
  | known hcached => exact ⟨rfl, fun _ => rfl⟩
  | refused error hcached => exact ⟨rfl, fun other => LawfulStore.held_get _ _ other⟩
  | declined error hcached hfound honboard hwrite =>
      obtain ⟨health, hwritten⟩ := (engine.fetch player).2.exists_write_eq _ now
      refine ⟨?_, fun other => ?_⟩
      · rw [hwritten]
        rfl
      · exact (held_write_of_error hwrite other).trans (LawfulStore.held_get _ _ other)
  | started => cases hfailed

end Onboarding

/-! ### Runs -/

section Runs

variable (engine : Engine σ)

theorem effects_onboard (player : String) (experience : Experience) (now : Instant) :
    Effects (fun _ => True) (fun _ => True) engine.holdings
      (engine.onboard player experience now).2.holdings := by
  have hwritten (record : PlayerRecord) :
      Effects (fun _ => True) (fun _ => True) engine.holdings
        ((engine.fetch player).2.write record now).2.holdings :=
    (engine.effects_fetch _ _ player).trans (effects_persist _ _ record trivial now)
  have honboards := engine.onboards_onboard player experience now
  generalize engine.onboard player experience now = result at honboards ⊢
  cases honboards with
  | known => exact .refl
  | refused => exact engine.effects_fetch _ _ player
  | declined => exact hwritten _
  | started =>
      exact ((hwritten _).trans (effects_emitAll _ _ _ _ now)).trans
        (effects_cache _ _ player trivial)

theorem effects_progress (player : String) (now : Instant) :
    Effects (fun _ => True) (fun _ => True) engine.holdings
      (engine.progress player now).2.holdings := by
  rcases engine.snd_progress player now with hsame | hfetched
  · rw [hsame]
  · rw [hfetched]
    exact engine.effects_fetch _ _ player

theorem effects_coachingMode (player skill : String) (now : Instant) :
    Effects (fun _ => True) (fun _ => True) engine.holdings
      (engine.coachingMode player skill now).2.holdings := by
  have hprogress := engine.effects_progress player now
  unfold coachingMode
  split
  · exact .refl
  · dsimp only
    split <;> exact hprogress

/-- Whatever an operation does, but for a restart, it does by effects. -/
theorem effects_step {operation : Operation} (hgoes : operation.restarts? = none) :
    Effects (fun _ => True) (fun _ => True) engine.holdings (engine.step operation).holdings := by
  cases operation with
  | decide session decision live now =>
      exact (engine.effects_decide session decision live now).mono (fun _ _ => trivial)
        fun _ _ => trivial
  | onboard player experience now => exact engine.effects_onboard player experience now
  | startSession session player now =>
      rw [step, holdings_startSession]
  | endSession session now =>
      exact (engine.effects_endSession session now).mono (fun _ _ => trivial) fun _ _ => trivial
  | noteSurfaced session skill hand =>
      simp only [step, noteSurfaced]
      split <;> exact .refl
  | progress player now => exact engine.effects_progress player now
  | coachingMode player skill now => exact engine.effects_coachingMode player skill now
  | skillSummaries player now => exact engine.effects_progress player now
  | restart course journal => cases hgoes

/-- Whether an operation onboards a player. -/
def welcomes (player : String) : Operation → Bool
  | .onboard newcomer experience now =>
      newcomer = player && (engine.onboard newcomer experience now).1.isOk
  | _ => false

/-- How often a player is onboarded in a run. -/
def onboardings (player : String) (engine : Engine σ) : List Operation → Nat
  | [] => 0
  | operation :: rest =>
      (if engine.welcomes player operation then 1 else 0)
        + onboardings player (engine.step operation) rest

variable {engine} [LawfulStore σ] {player : String}

/-- A store that holds a record of a player goes on holding one. -/
theorem held_step (hheld : (held engine.store player).isSome) (operation : Operation) :
    (held (engine.step operation).store player).isSome := by
  by_cases hgoes : operation.restarts? = none
  · refine (engine.effects_step hgoes).keeps
      (fun holdings => (held holdings.store player).isSome) ?_ hheld
    intro before next heffect hbefore
    cases heffect with
    | read other =>
        dsimp only
        rwa [LawfulStore.held_get]
    | write record hwrites =>
        dsimp only
        rw [LawfulStore.held_put]
        split
        · rfl
        · exact hbefore
    | tell event => exact hbefore
    | cache other slot hcaches => exact hbefore
    | drop other => exact hbefore
  · obtain ⟨course, hcourse⟩ := Option.ne_none_iff_exists'.mp hgoes
    obtain ⟨journal, rfl⟩ := Operation.restarts?_eq_some hcourse
    exact hheld

theorem held_of_welcomes {operation : Operation} (hwelcomes : engine.welcomes player operation) :
    held engine.store player = none ∧ (held (engine.step operation).store player).isSome := by
  cases operation with
  | onboard newcomer experience now =>
      simp only [welcomes, Bool.and_eq_true, decide_eq_true_iff] at hwelcomes
      obtain ⟨rfl, hok⟩ := hwelcomes
      rw [step]
      have honboards := engine.onboards_onboard newcomer experience now
      generalize hresult : engine.onboard newcomer experience now = result at honboards hok ⊢
      cases honboards with
      | started hcached hfound honboard hwrite =>
          have hholds := (holds_of_isOk_onboard honboard (by rw [hresult]; rfl)).2.1
          rw [hresult] at hholds
          refine ⟨?_, Option.isSome_of_eq_some hholds⟩
          rcases LawfulStore.get_eq engine.store newcomer with hget | ⟨error, hget⟩
          · exact Except.ok.inj (hget.symm.trans hfound)
          · cases hget.symm.trans hfound
      | _ => cases hok
  | _ => cases hwelcomes

theorem onboardings_eq_zero (hheld : (held engine.store player).isSome)
    (operations : List Operation) : onboardings player engine operations = 0 := by
  induction operations generalizing engine with
  | nil => rfl
  | cons operation rest ih =>
      have hknown : engine.welcomes player operation = false := by
        by_contra hwelcomes
        rw [(held_of_welcomes (by simpa using hwelcomes)).1] at hheld
        cases hheld
      rw [onboardings, hknown, ih (held_step hheld operation)]
      rfl

theorem onboardings_le_one (engine : Engine σ) (player : String) (operations : List Operation) :
    onboardings player engine operations ≤ 1 := by
  induction operations generalizing engine with
  | nil => exact Nat.zero_le 1
  | cons operation rest ih =>
      rw [onboardings]
      cases hwelcomes : engine.welcomes player operation with
      | false =>
          rw [if_neg Bool.false_ne_true, Nat.zero_add]
          exact ih (engine.step operation)
      | true =>
          have hnone := onboardings_eq_zero (held_of_welcomes hwelcomes).2 rest
          rw [if_pos rfl]
          omega

end Runs

/-- Onboarding works exactly for a player that neither cache nor store knows, if store can be read
and written; the record of a new player is then in both. If it does not work, only the health of the
store may have changed. However often it is tried, it works at most once for each player. -/
theorem onboarding_all_or_nothing_and_once [LawfulStore σ] (engine : Engine σ)
    (haccepted : engine.curriculum.Accepted) (hgates : engine.curriculum.gates ≠ [])
    (player : String) :
    (∀ (experience : Experience) (now : Instant),
      let answer := (engine.onboard player experience now).1
      let after := (engine.onboard player experience now).2
      ∃ record rows, record.Starts rows engine.curriculum player experience now ∧
        (answer.isOk = true ↔
          engine.slot? player = none ∧ (RecordStore.get engine.store player).1 = .ok none ∧
            (RecordStore.put (RecordStore.get engine.store player).2 record).1 = .ok ()) ∧
        (answer.isOk = true → answer = .ok rows ∧ held after.store player = some record ∧
          after.slot? player = some ⟨record, true⟩) ∧
        (answer.isOk = false →
          after = { engine with store := after.store, health := after.health } ∧
            ∀ other, held after.store other = held engine.store other)) ∧
    ∀ operations, onboardings player engine operations ≤ 1 := by
  refine ⟨fun experience now => ?_, engine.onboardings_le_one player⟩
  obtain ⟨record, rows, honboard, hstarts⟩ :=
    PlayerRecord.exists_starts haccepted.wellFormed hgates player experience now
  exact ⟨record, rows, hstarts, isOk_onboard_iff honboard, holds_of_isOk_onboard honboard,
    eq_of_not_isOk_onboard⟩

/-- The first try cannot be written, the second one works, and no other does. -/
theorem onboarding_all_or_nothing_and_once_after_outage :
    let store : FaultyStore MemoryStore := { inner := .empty, writeFails := fun write => write < 1 }
    let first := launch store {} none
    let failed := first.onboard "ana" .advanced .epoch
    let worked := failed.2.onboard "ana" .advanced .epoch
    (failed.1.isOk = false ∧ failed.2.slot? "ana" = none ∧ held failed.2.store "ana" = none) ∧
      (worked.1.isOk = true ∧ ∃ record, held worked.2.store "ana" = some record ∧
        worked.2.slot? "ana" = some ⟨record, true⟩ ∧ ∀ gate : UInt32,
          record.isUnlocked gate = true ↔ 1 ≤ gate.toNat ∧ gate.toNat ≤ 3) ∧
      onboardings "ana" first
        [.onboard "ana" .advanced .epoch, .onboard "ana" .advanced .epoch, .restart {} none,
          .onboard "ana" .beginner .epoch] = 1 := by
  intro store first failed worked
  have hfailed : failed.1.isOk = false := by decide +kernel
  have hworked : worked.1.isOk = true := by decide +kernel
  have hgates : Curriculum.standard.gates ≠ [] := by decide
  have hfrontier : failed.2.curriculum.startFrontier .advanced = 3 := by decide +kernel
  obtain ⟨hnothing, -⟩ := onboarding_all_or_nothing_and_once first (.inl rfl) hgates "ana"
  obtain ⟨-, -, -, -, -, hkept⟩ := hnothing .advanced .epoch
  obtain ⟨hall, -⟩ := onboarding_all_or_nothing_and_once failed.2 (.inl rfl) hgates "ana"
  obtain ⟨record, rows, hstarts, -, hholds, -⟩ := hall .advanced .epoch
  obtain ⟨-, hstored, hcached⟩ := hholds hworked
  obtain ⟨hsame, hheld⟩ := hkept hfailed
  refine ⟨⟨hfailed, ?_, ?_⟩, ⟨hworked, record, hstored, hcached, fun gate => ?_⟩, ?_⟩
  · exact (congrArg (·.slot? "ana") hsame).trans ExtTreeMap.getElem?_empty
  · exact (hheld "ana").trans (MemoryStore.find?_empty "ana")
  · rw [hstarts.isUnlocked_iff, hfrontier]
  · decide +kernel

end Engine

end PokerCoach
