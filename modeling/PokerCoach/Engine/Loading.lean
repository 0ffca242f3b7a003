import PokerCoach.Engine.Basic

/-!
# Loading records

The record of a player is cached when it is first needed. As long as the store cannot be read, a
record in memory takes its place; once the store can be read, what is stored wins, and where nothing
is stored the record in memory becomes the durable one.
-/

namespace PokerCoach

open Std Time

structure Loaded where
  slot : Slot
  unlocked : List UInt32 := []
  backfilled : List Backfill := []
  /-- Whether every write that was needed worked. -/
  persisted : Bool := true

inductive Source where
  | stored (record : PlayerRecord)
  /-- Nothing is stored, and the record in memory becomes durable. -/
  | promoted (record : PlayerRecord)
  | new
  /-- The store could not be read, and there is no record in memory yet. -/
  | unread

def Source.record (source : Source) (player : String) (now : Instant) : PlayerRecord :=
  match source with
  | .stored record => record
  | .promoted record => record
  | .new => .fresh player now
  | .unread => .fresh player now

def Source.isDurable : Source → Bool
  | .unread => false
  | _ => true

def Source.isPromoted : Source → Bool
  | .promoted _ => true
  | _ => false

namespace Engine

variable {σ : Type} [RecordStore σ]

/-- The events of bringing a record up to date. -/
def setupHappenings (player : String) (unlocked : Bool) (rows : List Backfill) :
    List Happening :=
  (if unlocked then [.gateUnlocked player 1] else []) ++ rows.map (.ofBackfill player)

/-- Opens the first gate, creates missing rows and caches the record. A durable record that changed
is written. -/
def install (engine : Engine σ) (player : String) (source : Source) (now : Instant) :
    Loaded × Engine σ :=
  let (record, unlocked) := (source.record player now).ensureEntryGate now
  let (record, rows) := record.backfill engine.curriculum now
  let durable := source.isDurable
  let (persisted, engine) :=
    if durable then
      let engine := engine.emitAll (setupHappenings player unlocked rows) now
      if source.isPromoted || unlocked || !rows.isEmpty then engine.persist record now
      else (true, engine)
    else (true, engine)
  let slot : Slot := { record, durable }
  ({ slot
     unlocked := if unlocked then [1] else []
     backfilled := rows
     persisted },
    engine.cache player slot)

/-- The cached record of a player, after loading it if need be. -/
def load (engine : Engine σ) (player : String) (now : Instant) : Loaded × Engine σ :=
  match engine.slot? player with
  | some ⟨record, true⟩ => ({ slot := ⟨record, true⟩ }, engine)
  | some ⟨kept, false⟩ =>
      let (found, engine) := engine.fetch player
      match found with
      | .ok (some record) => engine.install player (.stored record) now
      | .ok none => engine.install player (.promoted kept) now
      | .error _ => ({ slot := ⟨kept, false⟩ }, engine)
  | none =>
      let (found, engine) := engine.fetch player
      match found with
      | .ok (some record) => engine.install player (.stored record) now
      | .ok none => engine.install player .new now
      | .error error => (engine.track error now).install player .unread now

/-- Drops the cached record of a player. A durable one is written first, and stays if that fails. -/
def release (engine : Engine σ) (player : String) (now : Instant) : Engine σ :=
  match engine.slot? player with
  | none => engine
  | some slot =>
      let (saved, engine) :=
        if slot.durable then engine.persist slot.record now else (true, engine)
      if saved then { engine with players := engine.players.erase player } else engine

/-! ### Onboarding

A new player starts at the gate that suits what the player says about the own experience. It runs
once for each player, and not at all if the record cannot be written. -/

def onboardHappenings (player : String) (experience : Experience) (record : PlayerRecord)
    (rows : List Backfill) : List Happening :=
  .onboarded player experience (UInt32.ofNat rows.length)
    :: record.openGates.map (.gateUnlocked player)

def onboard (engine : Engine σ) (player : String) (experience : Experience) (now : Instant) :
    Except Error (List Backfill) × Engine σ :=
  if (engine.slot? player).isSome then (.error (.alreadyHasProgress player), engine)
  else
    let (found, engine) := engine.fetch player
    match found with
    | .error error => (.error error, engine)
    | .ok (some _) => (.error (.alreadyHasProgress player), engine)
    | .ok none =>
        match (PlayerRecord.fresh player now).onboard? engine.curriculum experience now with
        | none => (.error (.alreadyHasProgress player), engine)
        | some (record, rows) =>
            let (done, engine) := engine.write record now
            match done with
            | .error error => (.error error, engine)
            | .ok () =>
                let engine :=
                  engine.emitAll (onboardHappenings player experience record rows) now
                (.ok rows, engine.cache player ⟨record, true⟩)

end Engine

end PokerCoach
