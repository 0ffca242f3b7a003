import PokerCoach.Command.Run
import PokerCoach.Proofs.Engine.Effects
import PokerCoach.Proofs.Engine.Telling

/-!
# Dry runs

A replay that keeps its records in memory leaves the files of the players as they are. The journal
is not in memory: a record there counts as durable, so that what the replay changes is told as ever.
-/

namespace PokerCoach

open Data Std Time

/-! ### Journals that grow -/

/-- Entries are only ever added, and none where none can be. -/
def Journal.Grows (before after : Journal) : Prop :=
  ∃ told : List Event, after = { before with entries := before.entries ++ told } ∧
    (before.blocked = true → told = [])

theorem Journal.Grows.refl (journal : Journal) : journal.Grows journal :=
  ⟨[], by rw [List.append_nil], fun _ => rfl⟩

theorem Journal.Grows.append {before journal : Journal} (hgrows : before.Grows journal)
    (event : Event) : before.Grows (failOpen journal (journal.append event)) := by
  obtain ⟨told, rfl, hblocked⟩ := hgrows
  cases hopen : before.blocked with
  | true =>
      obtain rfl := hblocked hopen
      refine ⟨[], ?_, fun _ => rfl⟩
      simp [Journal.append, failOpen, hopen]
  | false =>
      refine ⟨told ++ [event], ?_, fun h => ?_⟩
      · simp [Journal.append, failOpen, hopen]
      · rw [hopen] at h
        cases h

theorem Effects.journal_grows {σ : Type} [RecordStore σ] {writes : String → Prop}
    {caches : Slot → Prop} {holdings after : Holdings σ}
    (heffects : Effects writes caches holdings after) :
    Option.Rel Journal.Grows holdings.journal after.journal := by
  refine heffects.keeps (fun reached => Option.Rel Journal.Grows holdings.journal reached.journal)
    (fun before next heffect hgrows => ?_) ?_
  · cases heffect with
    | tell event =>
        dsimp only
        generalize holdings.journal = first, before.journal = middle at hgrows ⊢
        cases hgrows with
        | none => exact .none
        | some hgrows => exact .some (hgrows.append event)
    | _ => exact hgrows
  · cases holdings.journal with
    | none => exact .none
    | some journal => exact .some (.refl journal)

/-! ### Records in memory -/

section Choice

variable {σ τ : Type} [RecordStore σ] [RecordStore τ]

@[simp]
theorem isLeft_snd_get (store : σ ⊕ τ) (player : String) :
    (RecordStore.get store player).2.isLeft = store.isLeft := by
  cases store <;> rfl

@[simp]
theorem isLeft_snd_put (store : σ ⊕ τ) (record : PlayerRecord) :
    (RecordStore.put store record).2.isLeft = store.isLeft := by
  cases store <;> rfl

end Choice

/-- Records are in memory, and none of those that are cached stands in for one that could not be
read. -/
structure Holdings.Dry {σ : Type} (holdings : Holdings (MemoryStore ⊕ σ)) : Prop where
  isLeft : holdings.store.isLeft = true
  durable : ∀ (player : String) (slot : Slot), holdings.players[player]? = some slot →
    slot.durable = true

namespace Holdings.Dry

variable {σ : Type} [RecordStore σ]

theorem of_effects {writes : String → Prop} {holdings after : Holdings (MemoryStore ⊕ σ)}
    (hdry : holdings.Dry) (heffects : Effects writes (·.durable = true) holdings after) :
    after.Dry := by
  refine heffects.keeps Holdings.Dry (fun before next heffect hbefore => ?_) hdry
  cases heffect with
  | read player => exact ⟨(isLeft_snd_get _ player).trans hbefore.isLeft, hbefore.durable⟩
  | write record => exact ⟨(isLeft_snd_put _ record).trans hbefore.isLeft, hbefore.durable⟩
  | tell event => exact ⟨hbefore.isLeft, hbefore.durable⟩
  | cache player slot hcaches =>
      refine ⟨hbefore.isLeft, fun other kept hkept => ?_⟩
      rw [ExtTreeMap.getElem?_insert] at hkept
      split at hkept
      · cases hkept
        exact hcaches
      · exact hbefore.durable other kept hkept
  | drop player =>
      refine ⟨hbefore.isLeft, fun other kept hkept => ?_⟩
      rw [ExtTreeMap.getElem?_erase] at hkept
      split at hkept
      · cases hkept
      · exact hbefore.durable other kept hkept

variable {engine : Engine (MemoryStore ⊕ σ)}

theorem fetch_ne_error (hdry : engine.holdings.Dry) (player : String) (error : Error) :
    (engine.fetch player).1 ≠ .error error := by
  have hleft : engine.store.isLeft = true := hdry.isLeft
  unfold Engine.fetch
  cases hstore : engine.store with
  | inl store => exact fun h => nomatch h
  | inr store =>
      rw [hstore] at hleft
      cases hleft

/-- Memory can always be read, so each record that is loaded is durable. -/
theorem durable_load (hdry : engine.holdings.Dry) (player : String) (now : Instant) :
    (engine.load player now).1.slot.durable = true := by
  have hloads := engine.loadsFrom_load player now
  generalize engine.load player now = result at hloads ⊢
  cases hloads with
  | durable record hslot => rfl
  | kept record error hslot hfetch => exact absurd hfetch (hdry.fetch_ne_error player error)
  | installed source fetched hsource hholdings =>
      change source.isDurable = true
      cases hsource with
      | unread error hfetch => exact absurd hfetch (hdry.fetch_ne_error player error)
      | _ => rfl

theorem durable_loadFor (hdry : engine.holdings.Dry) (session : String) (decision : Decision)
    (now : Instant) : (engine.loadFor session decision now).1.slot.durable = true := by
  rw [← engine.holdings_ensureSession session decision.player now] at hdry
  exact hdry.durable_load decision.player now

theorem effects_decide (hdry : engine.holdings.Dry) (session : String) (decision : Decision)
    (live : LiveAction) (now : Instant) :
    Effects (fun _ => True) (·.durable = true) engine.holdings
      (engine.decide session decision live now).2.holdings :=
  (engine.effects_decide session decision live now).mono (fun _ _ => trivial) fun _ hcaches =>
    hcaches.trans (hdry.durable_loadFor session decision now)

end Holdings.Dry

/-! ### Changes that are told -/

def ReplayOutput.changes (output : ReplayOutput) : Changes where
  transitions := output.transitions
  unlocked := output.unlocked
  backfilled := output.backfilled

namespace Engine

variable {σ : Type}

/-- The journal takes in just some changes. -/
def TellsChanges (engine : Engine σ) (changes : Changes) (after : Engine σ) : Prop :=
  ∃ happenings, engine.Tells happenings after ∧ Changes.ofHappenings happenings = changes ∧
    ∀ happening ∈ happenings, ∃ player, happening.IsChangeOf player

theorem TellsChanges.of_journal_eq {engine after : Engine σ}
    (hjournal : after.journal = engine.journal) : engine.TellsChanges {} after :=
  ⟨[], .of_journal_eq hjournal, rfl, fun _ hmem => absurd hmem List.not_mem_nil⟩

theorem TellsChanges.trans {engine middle after : Engine σ} {first second : Changes}
    (hfirst : engine.TellsChanges first middle) (hsecond : middle.TellsChanges second after) :
    engine.TellsChanges (first ++ second) after := by
  obtain ⟨happenings, htells, rfl, hchanges⟩ := hfirst
  obtain ⟨more, hmore, rfl, hlater⟩ := hsecond
  refine ⟨happenings ++ more, htells.trans hmore, Changes.ofHappenings_append _ _,
    fun happening hmem => ?_⟩
  exact (List.mem_append.mp hmem).elim (hchanges happening) (hlater happening)

theorem tellsChanges_decide [RecordStore σ] {engine : Engine (MemoryStore ⊕ σ)}
    (hdry : engine.holdings.Dry) (session : String) (decision : Decision) (live : LiveAction)
    (now : Instant) :
    engine.TellsChanges (engine.decide session decision live now).1.changes
      (engine.decide session decision live now).2 := by
  have htells := (engine.tellsAt_decide session decision live now).tells
  rw [show (engine.startTurn session decision live now).slot.durable = true from
    hdry.durable_loadFor session decision now] at htells
  exact ⟨_, htells, (engine.changes_decide session decision live now).symm, fun _ hmem =>
    (isChangeOf_of_mem_decisionHappenings hmem).elim (⟨_, ·⟩) (⟨_, ·⟩)⟩

end Engine

/-! ### Replays -/

namespace Replay

variable {σ : Type} [RecordStore σ]

/-- What a replay of a dry engine leaves: some effects, and the changes of its output in the
journal. -/
structure RunsDry (engine : Engine (MemoryStore ⊕ σ)) (changes : Changes)
    (after : Engine (MemoryStore ⊕ σ)) : Prop where
  effects : Effects (fun _ => True) (·.durable = true) engine.holdings after.holdings
  tells : engine.TellsChanges changes after

theorem RunsDry.refl (engine : Engine (MemoryStore ⊕ σ)) : RunsDry engine {} engine :=
  ⟨.refl, .of_journal_eq rfl⟩

theorem RunsDry.trans {engine middle after : Engine (MemoryStore ⊕ σ)} {first second : Changes}
    (hfirst : RunsDry engine first middle) (hsecond : RunsDry middle second after) :
    RunsDry engine (first ++ second) after :=
  ⟨hfirst.effects.trans hsecond.effects, hfirst.tells.trans hsecond.tells⟩

variable {engine : Engine (MemoryStore ⊕ σ)}

theorem runsDry_decideAll (hdry : engine.holdings.Dry) (session : String)
    (clock : Nat → Instant) (records : List ReplayRecord) :
    let result := decideAll engine session clock records
    RunsDry engine
      { transitions := result.1.flatMap DecisionReport.transitions
        unlocked := result.1.flatMap DecisionReport.unlocked
        backfilled := result.1.flatMap DecisionReport.backfilled }
      result.2 := by
  induction records generalizing engine clock with
  | nil => exact .refl engine
  | cons record rest ih =>
      have hdecide := hdry.effects_decide session record.decision record.action (clock 0)
      exact RunsDry.trans
        ⟨hdecide, Engine.tellsChanges_decide hdry session record.decision record.action (clock 0)⟩
        (ih (hdry.of_effects hdecide) fun reading => clock (reading + 1))

theorem RunsDry.of_holdings_eq {engine after : Engine (MemoryStore ⊕ σ)}
    (hholdings : after.holdings = engine.holdings) : RunsDry engine {} after :=
  ⟨hholdings ▸ .refl, .of_journal_eq (congrArg Holdings.journal hholdings)⟩

theorem runsDry_endSession (engine : Engine (MemoryStore ⊕ σ)) (session : String)
    (now : Instant) : RunsDry engine {} (engine.endSession session now).2 :=
  ⟨(engine.effects_endSession session now).mono (fun _ h => h) fun _ h => h.elim,
    .of_journal_eq (engine.journal_endSession session now)⟩

theorem runsDry_runRecords (hdry : engine.holdings.Dry) (records : List ReplayRecord)
    (session : String) (clock : Nat → Instant) :
    let result := runRecords engine records session clock
    RunsDry engine result.1.changes result.2 := by
  cases records with
  | nil => exact .refl engine
  | cons first rest =>
      have hheld := engine.holdings_startSession session first.decision.player (clock 0)
      unfold runRecords
      dsimp only
      split
      · next error started hstart =>
          rw [hstart] at hheld
          exact .of_holdings_eq hheld
      · next started hstart =>
          rw [hstart] at hheld
          have hdecided := runsDry_decideAll (hheld ▸ hdry) session clock (first :: rest)
          have hended := runsDry_endSession (decideAll started session clock (first :: rest)).2
            session (clock (first :: rest).length)
          have hall := ((RunsDry.of_holdings_eq hheld).trans hdecided).trans hended
          rwa [Changes.empty_append, Changes.append_empty] at hall

theorem runsDry_run (hdry : engine.holdings.Dry) (files : Files) (path session : String)
    (clock : Nat → Instant) :
    let result := run engine files path session clock
    RunsDry engine result.1.changes result.2 := by
  unfold run
  dsimp only
  split
  · exact .refl engine
  · next records _ => exact runsDry_runRecords hdry records session clock

end Replay

theorem Workspace.dry_engine (workspace : Workspace) :
    (workspace.engine (.inl .empty)).holdings.Dry := by
  refine ⟨rfl, fun player slot hslot => ?_⟩
  simp [Engine.holdings, Workspace.engine] at hslot

/-- What is told of changes to a journal that takes it in. -/
theorem Engine.TellsChanges.of_journal {σ : Type} {engine after : Engine σ} {changes : Changes}
    (htells : engine.TellsChanges changes after) {journal : Journal} {told : List Event}
    (hjournal : engine.journal = some journal) (hopen : journal.blocked = false)
    (hafter : after.journal = some { journal with entries := journal.entries ++ told }) :
    Changes.ofHappenings (told.map Event.happening) = changes ∧ told.length = changes.size := by
  obtain ⟨happenings, htells, rfl, hchanges⟩ := htells
  have htold : told.map Event.happening = happenings := by
    have hentries := (htells ⟨journal, hjournal, hopen⟩).2
    simpa [Engine.happenings, hjournal, hafter] using hentries
  exact ⟨congrArg Changes.ofHappenings htold, by
    rw [Changes.size_ofHappenings hchanges, ← htold, List.length_map]⟩

theorem Workspace.take_of_dry {workspace : Workspace}
    {engine : Engine (MemoryStore ⊕ DirectoryStore)} (hdry : engine.holdings.Dry) :
    workspace.take engine =
      { workspace with journal := engine.journal.getD workspace.journal } := by
  obtain ⟨store, hstore⟩ := Sum.isLeft_iff.mp hdry.isLeft
  rw [take, show engine.store = .inl store from hstore]
  rfl

/-- A dry run leaves all as it is but the journal. The journal gets one more event for each change
that the replay reports, unless no events are kept or none can be appended. -/
theorem dry_run_grows_journal (workspace : Workspace) (file : String) (session : Option String)
    (view : View) (now : Instant) (clock : Nat → Instant) :
    let after := ((Command.replay file session true view).run workspace now clock).2
    let changes := (Replay.run (workspace.engine (.inl .empty)) workspace.files file
      (session.getD "replay") clock).1.changes
    ∃ told : List Event,
      after = { workspace with
        journal :=
          { workspace.journal with entries := workspace.journal.entries ++ told } } ∧
      if workspace.settings.eventsEnabled = true ∧ workspace.journal.blocked = false then
        Changes.ofHappenings (told.map Event.happening) = changes ∧ told.length = changes.size
      else told = [] := by
  intro after changes
  let engine := workspace.engine (.inl .empty)
  let later := (Replay.run engine workspace.files file (session.getD "replay") clock).2
  have hruns : Replay.RunsDry engine changes later :=
    Replay.runsDry_run workspace.dry_engine workspace.files file (session.getD "replay") clock
  have hafter : after = { workspace with journal := later.journal.getD workspace.journal } :=
    Workspace.take_of_dry (workspace.dry_engine.of_effects hruns.effects)
  have hjournal : engine.journal =
      if workspace.settings.eventsEnabled then some workspace.journal else none := rfl
  have hgrows : Option.Rel Journal.Grows engine.journal later.journal := hruns.effects.journal_grows
  rw [hafter]
  cases henabled : workspace.settings.eventsEnabled with
  | false =>
      rw [henabled] at hjournal
      have hnone : later.journal = none := by
        rw [hjournal] at hgrows
        generalize later.journal = last at hgrows
        cases hgrows
        rfl
      refine ⟨[], ?_, ?_⟩
      · rw [hnone, List.append_nil]
        rfl
      · simp
  | true =>
      rw [henabled] at hjournal
      obtain ⟨last, hlast, told, rfl, hblocked⟩ : ∃ last, later.journal = some last ∧
          workspace.journal.Grows last := by
        rw [hjournal] at hgrows
        generalize later.journal = last at hgrows
        cases hgrows with
        | some hgrows => exact ⟨_, rfl, hgrows⟩
      refine ⟨told, by rw [hlast]; rfl, ?_⟩
      split
      · next hopen => exact hruns.tells.of_journal hjournal hopen.2 hlast
      · next hclosed => exact hblocked (by simpa using hclosed)

/-- The journal of a home without one is there after a dry run. -/
theorem dry_run_writes_events :
    let record : ReplayRecord :=
      { decision := { player := "ana", hand := 1, street := .preflop }
        action := { action := .fold } }
    let workspace : Workspace :=
      { files := fun _ => .text (Json.printLine (toData record))
        records := { path := "players" }
        journal := { path := "events.log" } }
    let after := ((Command.replay "hands.json" none true {}).run workspace .epoch).2
    after.journal.text? ≠ workspace.journal.text? := by
  decide +kernel

end PokerCoach
