import PokerCoach.Proofs.Engine.Draft
import Mathlib.Logic.Relation

/-!
# Effects of an engine

All that an engine does to records and events is to read and to write records, to append events, and
to cache records and to drop them. A decision writes records of one player only: the one whom the
loaded record names. Nothing is asked of the store here but that it answers.
-/

namespace PokerCoach

open Std Time

/-- What an engine works on besides its sessions. -/
structure Holdings (σ : Type) where
  store : σ
  journal : Option Journal
  players : ExtTreeMap String Slot

section Effects

variable {σ : Type} [RecordStore σ]

/-- One effect. Records are written only of players of whom they may be, and cached only in slots as
they may be. -/
inductive Effect (writes : String → Prop) (caches : Slot → Prop) (holdings : Holdings σ) :
    Holdings σ → Prop
  | read (player : String) :
      Effect writes caches holdings
        { holdings with store := (RecordStore.get holdings.store player).2 }
  | write (record : PlayerRecord) (hwrites : writes record.player) :
      Effect writes caches holdings
        { holdings with store := (RecordStore.put holdings.store record).2 }
  | tell (event : Event) :
      Effect writes caches holdings
        { holdings with
          journal := holdings.journal.map fun journal =>
            failOpen journal (journal.append event) }
  | cache (player : String) (slot : Slot) (hcaches : caches slot) :
      Effect writes caches holdings
        { holdings with players := holdings.players.insert player slot }
  | drop (player : String) :
      Effect writes caches holdings { holdings with players := holdings.players.erase player }

abbrev Effects (writes : String → Prop) (caches : Slot → Prop) : Holdings σ → Holdings σ → Prop :=
  Relation.ReflTransGen (Effect writes caches)

variable {writes : String → Prop} {caches : Slot → Prop}

theorem Effects.mono {writes' : String → Prop} {caches' : Slot → Prop}
    (hwrites : ∀ player, writes player → writes' player)
    (hcaches : ∀ slot, caches slot → caches' slot) {holdings after : Holdings σ}
    (heffects : Effects writes caches holdings after) : Effects writes' caches' holdings after := by
  induction heffects with
  | refl => exact .refl
  | tail _ hnext ih =>
      refine ih.tail ?_
      cases hnext with
      | read player => exact .read player
      | write record hallowed => exact .write record (hwrites _ hallowed)
      | tell event => exact .tell event
      | cache player slot hallowed => exact .cache player slot (hcaches _ hallowed)
      | drop player => exact .drop player

/-- What every effect keeps, all of them keep. -/
theorem Effects.keeps {holdings after : Holdings σ}
    (heffects : Effects writes caches holdings after) (holds : Holdings σ → Prop)
    (heffect : ∀ before next, Effect writes caches before next → holds before → holds next)
    (hholds : holds holdings) : holds after := by
  induction heffects with
  | refl => exact hholds
  | tail _ hnext ih => exact heffect _ _ hnext ih

end Effects

namespace Engine

variable {σ : Type} (engine : Engine σ)

def holdings : Holdings σ :=
  ⟨engine.store, engine.journal, engine.players⟩

@[simp]
theorem holdings_ensureSession (id owner : String) (now : Instant) :
    (engine.ensureSession id owner now).holdings = engine.holdings := by
  unfold ensureSession
  split <;> rfl

@[simp]
theorem holdings_remember (id : String) (hand : UInt32) (evaluation : Evaluation) :
    (engine.remember id hand evaluation).holdings = engine.holdings := by
  unfold remember
  split <;> rfl

@[simp]
theorem holdings_startSession (id owner : String) (now : Instant) :
    (engine.startSession id owner now).2.holdings = engine.holdings := by
  unfold startSession
  split <;> rfl

variable [RecordStore σ]

section Steps

variable (writes : String → Prop) (caches : Slot → Prop)

theorem effects_emitAll (happenings : List Happening) (now : Instant) :
    Effects writes caches engine.holdings (engine.emitAll happenings now).holdings := by
  induction happenings generalizing engine with
  | nil => exact .refl
  | cons first rest ih =>
      exact (Relation.ReflTransGen.single (.tell { time := now, happening := first })).trans
        (ih (engine.emit first now))

theorem effects_fetch (player : String) :
    Effects writes caches engine.holdings (engine.fetch player).2.holdings :=
  .single (.read player)

variable {writes} in
theorem effects_persist (record : PlayerRecord) (hwrites : writes record.player) (now : Instant) :
    Effects writes caches engine.holdings (engine.persist record now).2.holdings := by
  obtain ⟨health, hwrite⟩ := engine.exists_write_eq record now
  rw [persist, hwrite]
  exact .single (.write record hwrites)

variable {caches} in
theorem effects_cache (player : String) {slot : Slot} (hcaches : caches slot) :
    Effects writes caches engine.holdings (engine.cache player slot).holdings :=
  .single (.cache player slot hcaches)

end Steps

/-! ### Loading and releasing -/

theorem effects_install {player : String} {source : Source} {now : Instant}
    {writes : String → Prop} {caches : Slot → Prop}
    (hwrites : writes (source.record player now).player)
    (hcaches : caches (engine.install player source now).1.slot) :
    Effects writes caches engine.holdings (engine.install player source now).2.holdings := by
  cases hdurable : source.isDurable with
  | true =>
      rcases engine.install_durable hdurable with ⟨record, -, -, hinstall⟩ | ⟨happenings, hinstall⟩
      · rw [hinstall] at hcaches ⊢
        exact engine.effects_cache writes player hcaches
      · have hrecord : writes ((source.record player now).setUp engine.curriculum now).player := by
          rwa [((source.record player now).setUp_extends engine.curriculum now).player]
        rw [hinstall] at hcaches ⊢
        exact ((engine.effects_emitAll writes caches happenings now).trans
          (effects_persist _ caches _ hrecord now)).trans (effects_cache _ writes player hcaches)
  | false =>
      cases source with
      | unread => exact engine.effects_cache writes player hcaches
      | _ => cases hdurable

theorem player_install (player : String) (source : Source) (now : Instant) :
    (engine.install player source now).1.slot.record.player =
      (source.record player now).player :=
  ((source.record player now).setUp_extends engine.curriculum now).player

/-- What a record may be loaded from. -/
inductive LoadSource (player : String) : Source → Prop
  | stored (record : PlayerRecord) (hfetch : (engine.fetch player).1 = .ok (some record)) :
      LoadSource player (.stored record)
  | promoted (record : PlayerRecord) (hslot : engine.slot? player = some ⟨record, false⟩) :
      LoadSource player (.promoted record)
  | new : LoadSource player .new
  | unread (error : Error) (hfetch : (engine.fetch player).1 = .error error) :
      LoadSource player .unread

/-- What a load gives: the cached record, or a source that is installed after a read. -/
inductive LoadsFrom (player : String) (now : Instant) : Loaded × Engine σ → Prop
  | durable (record : PlayerRecord) (hslot : engine.slot? player = some ⟨record, true⟩) :
      LoadsFrom player now ({ slot := ⟨record, true⟩ }, engine)
  | kept (record : PlayerRecord) (error : Error)
      (hslot : engine.slot? player = some ⟨record, false⟩)
      (hfetch : (engine.fetch player).1 = .error error) :
      LoadsFrom player now ({ slot := ⟨record, false⟩ }, (engine.fetch player).2)
  | installed (source : Source) (fetched : Engine σ) (hsource : engine.LoadSource player source)
      (hholdings : fetched.holdings = (engine.fetch player).2.holdings) :
      LoadsFrom player now (fetched.install player source now)

theorem loadsFrom_load (player : String) (now : Instant) :
    engine.LoadsFrom player now (engine.load player now) := by
  unfold load
  split
  · next record hslot => exact .durable record hslot
  · next kept hslot =>
      dsimp only
      split
      · next record hfetch => exact .installed _ _ (.stored record hfetch) rfl
      · exact .installed _ _ (.promoted kept hslot) rfl
      · next error hfetch => exact .kept kept error hslot hfetch
  · dsimp only
    split
    · next record hfetch => exact .installed _ _ (.stored record hfetch) rfl
    · exact .installed _ _ .new rfl
    · next error hfetch => exact .installed _ _ (.unread error hfetch) rfl

/-- A loaded record names the player, or whom a record names that was there before. -/
theorem player_load (player : String) (now : Instant) :
    let owner := (engine.load player now).1.slot.record.player
    owner = player ∨
      (∃ slot, engine.slot? player = some slot ∧ slot.record.player = owner) ∨
      ∃ record, (engine.fetch player).1 = .ok (some record) ∧ record.player = owner := by
  have hloads := engine.loadsFrom_load player now
  generalize engine.load player now = result at hloads ⊢
  cases hloads with
  | durable record hslot => exact .inr (.inl ⟨_, hslot, rfl⟩)
  | kept record error hslot => exact .inr (.inl ⟨_, hslot, rfl⟩)
  | installed source fetched hsource =>
      rw [player_install]
      cases hsource with
      | stored record hfetch => exact .inr (.inr ⟨record, hfetch, rfl⟩)
      | promoted record hslot => exact .inr (.inl ⟨_, hslot, rfl⟩)
      | new => exact .inl rfl
      | unread => exact .inl rfl

/-- A load writes no records but of the player that the loaded record names. -/
theorem effects_load (player : String) (now : Instant) :
    let loaded := (engine.load player now).1
    Effects (· = loaded.slot.record.player) (·.durable = loaded.slot.durable) engine.holdings
      (engine.load player now).2.holdings := by
  have hloads := engine.loadsFrom_load player now
  generalize engine.load player now = result at hloads ⊢
  cases hloads with
  | durable => exact .refl
  | kept => exact engine.effects_fetch _ _ player
  | installed source fetched hsource hholdings =>
      have hinstall : Effects (· = (fetched.install player source now).1.slot.record.player)
          (·.durable = (fetched.install player source now).1.slot.durable)
          fetched.holdings (fetched.install player source now).2.holdings :=
        fetched.effects_install (fetched.player_install player source now).symm rfl
      rw [hholdings] at hinstall
      exact (engine.effects_fetch _ _ player).trans hinstall

theorem effects_release {player : String} {writes : String → Prop} (caches : Slot → Prop)
    (hwrites : ∀ slot, engine.slot? player = some slot → writes slot.record.player)
    (now : Instant) :
    Effects writes caches engine.holdings (engine.release player now).holdings := by
  unfold release
  split
  · exact .refl
  · next slot hslot =>
      have hpersist := engine.effects_persist caches slot.record (hwrites slot hslot) now
      cases slot.durable with
      | false => exact .single (.drop player)
      | true =>
          simp only [if_true]
          split
          · exact hpersist.tail (.drop player)
          · exact hpersist

end Engine

/-! ### Turns -/

namespace Turn

variable {σ : Type} (turn : Turn σ) [RecordStore σ]

section Steps

variable (writes : String → Prop) (caches : Slot → Prop)

theorem effects_emitAll (happenings : List Happening) (now : Instant) {engine : Engine σ}
    (hengine : turn.engine = engine) :
    Effects writes caches engine.holdings (turn.emitAll happenings now).engine.holdings := by
  subst hengine
  unfold emitAll
  split
  · exact turn.engine.effects_emitAll writes caches happenings now
  · exact .refl

theorem effects_recordOutcome (skill : Skill) (outcome : Outcome) (now : Instant) :
    Effects writes caches turn.engine.holdings
      (turn.recordOutcome skill outcome now).engine.holdings := by
  unfold recordOutcome
  refine effects_emitAll _ writes caches _ now ?_
  rfl

theorem effects_openGate (skill : String) (now : Instant) :
    Effects writes caches turn.engine.holdings (turn.openGate skill now).engine.holdings := by
  cases hearned : turn.slot.record.earnedGate? turn.engine.curriculum skill with
  | none => rw [turn.openGate_eq_of_none hearned]
  | some gate =>
      simp only [openGate, PlayerRecord.checkGate, hearned]
      refine effects_emitAll _ writes caches _ now ?_
      rfl

theorem effects_save (now : Instant) :
    Effects (· = turn.slot.record.player) caches turn.engine.holdings
      (turn.save now).engine.holdings := by
  have hpersist : Effects (· = turn.slot.record.player) caches turn.engine.holdings
      (turn.engine.persist turn.slot.record now).2.holdings := by
    refine turn.engine.effects_persist caches turn.slot.record ?_ now
    rfl
  unfold save
  split
  · exact hpersist
  · exact .refl

theorem effects_learned (skill : Skill) (evaluation : Evaluation) (now : Instant) :
    Effects (· = turn.slot.record.player) caches turn.engine.holdings
      (turn.learned skill evaluation now).engine.holdings := by
  have howner :
      (turn.learned skill evaluation now).slot.record.player = turn.slot.record.player := by
    rw [slot_learned]
    exact (PlayerRecord.learn_extends _ _ now skill _ _).player
  rw [learned, slot_save] at howner
  have hsaved := effects_save
    (((turn.note evaluation).recordOutcome skill evaluation.outcome now).openGate skill.id now)
    caches now
  rw [howner] at hsaved
  exact ((effects_recordOutcome (turn.note evaluation) _ _ skill evaluation.outcome now).trans
    (effects_openGate _ _ _ skill.id now)).trans hsaved

variable (session : String) (live : LiveAction) (spot : Situation) (now : Instant)

theorem effects_judge (skill : String) :
    Effects (· = turn.slot.record.player) caches turn.engine.holdings
      (turn.judge session live spot now skill).engine.holdings := by
  rcases turn.judge_cases session now live spot skill with
    ⟨-, hjudge⟩ | ⟨definition, -, -, -, hjudge⟩
  · rw [hjudge]
    exact .refl
  · rw [hjudge]
    dsimp only
    rw [Engine.holdings_remember]
    exact turn.effects_learned caches definition _ now

theorem effects_foldl_judge (skills : List String) :
    Effects (· = turn.slot.record.player) caches turn.engine.holdings
      (skills.foldl (judge session live spot now) turn).engine.holdings := by
  induction skills generalizing turn with
  | nil => exact .refl
  | cons skill rest ih =>
      have hrest := ih (turn.judge session live spot now skill)
      rw [(turn.record_judge_extends session live spot now skill).player] at hrest
      exact (turn.effects_judge caches session live spot now skill).trans hrest

end Steps

end Turn

namespace Engine

variable {σ : Type} [RecordStore σ] (engine : Engine σ)

/-- A decision writes no records but of the player that the loaded record names. What it caches is
durable if what it loads is. -/
theorem effects_decide (session : String) (decision : Decision) (live : LiveAction)
    (now : Instant) :
    let loaded := (engine.loadFor session decision now).1
    Effects (· = loaded.slot.record.player) (·.durable = loaded.slot.durable) engine.holdings
      (engine.decide session decision live now).2.holdings := by
  intro loaded
  let turn := engine.startTurn session decision live now
  let skills := turn.report.triggered
  let spot := decision.situation (some live)
  have hload := effects_load (engine.ensureSession session decision.player now) decision.player now
  rw [holdings_ensureSession] at hload
  have hdurable : (skills.foldl (Turn.judge session live spot now) turn).slot.durable =
      loaded.slot.durable :=
    turn.durable_foldl_judge session live spot now skills
  exact (hload.trans (turn.effects_foldl_judge _ session live spot now skills)).trans
    (effects_cache _ _ decision.player hdurable)

/-- Closing a session caches nothing. -/
theorem effects_endSession (session : String) (now : Instant) :
    Effects (fun _ => True) (fun _ => False) engine.holdings
      (engine.endSession session now).2.holdings := by
  unfold endSession
  split
  · exact .refl
  · next session hsession =>
      dsimp only
      split
      · exact .refl
      · refine effects_release { engine with sessions := engine.sessions.erase _ } _ ?_ now
        intro _ _
        trivial

end Engine

end PokerCoach
