import PokerCoach.Proofs.Store.Lawful
import PokerCoach.Proofs.Engine.Operation
import PokerCoach.Proofs.Progress.Extension

/-!
# The desk of a player

All that an engine and its store have of one player lies on a desk: the cached record, the stored
one, and what was asked of the store about the player. The parts of an operation act on one desk
each and leave all others as they are.
-/

namespace PokerCoach

open Std Time

structure Desk where
  cached : Option Slot
  stored : Option PlayerRecord
  accesses : List Access

namespace Desk

def read (desk : Desk) (player : String) (worked : Bool) : Desk :=
  { desk with accesses := desk.accesses ++ [.read player worked] }

def write (desk : Desk) (record : PlayerRecord) (worked : Bool) : Desk :=
  { desk with
    stored := if worked then some record else desk.stored
    accesses := desk.accesses ++ [.write desk.stored record worked] }

def hold (desk : Desk) (slot : Slot) : Desk :=
  { desk with cached := some slot }

def clear (desk : Desk) : Desk :=
  { desk with cached := none }

/-- Every record on the desk is one of the player. -/
structure Keyed (desk : Desk) (player : String) : Prop where
  cached : ∀ slot, desk.cached = some slot → slot.record.player = player
  stored : ∀ record, desk.stored = some record → record.player = player

structure All (desk : Desk) (holds : PlayerRecord → Prop) : Prop where
  cached : ∀ slot, desk.cached = some slot → holds slot.record
  stored : ∀ record, desk.stored = some record → holds record

namespace All

variable {desk : Desk} {holds : PlayerRecord → Prop}

theorem read (hall : desk.All holds) (player : String) (worked : Bool) :
    (desk.read player worked).All holds :=
  ⟨hall.cached, hall.stored⟩

theorem clear (hall : desk.All holds) : desk.clear.All holds :=
  ⟨by rintro _ ⟨⟩, hall.stored⟩

theorem hold (hall : desk.All holds) {slot : Slot} (hslot : holds slot.record) :
    (desk.hold slot).All holds :=
  ⟨by rintro _ ⟨⟩; exact hslot, hall.stored⟩

theorem write (hall : desk.All holds) {record : PlayerRecord} (hrecord : holds record)
    (worked : Bool) : (desk.write record worked).All holds where
  cached := hall.cached
  stored other hother := by
    cases worked with
    | true =>
        cases hother
        exact hrecord
    | false => exact hall.stored other hother

end All

theorem keyed_iff_all {desk : Desk} {player : String} :
    desk.Keyed player ↔ desk.All fun record => record.player = player :=
  ⟨fun hkeyed => ⟨hkeyed.cached, hkeyed.stored⟩, fun hall => ⟨hall.cached, hall.stored⟩⟩

theorem Keyed.all_ne {desk : Desk} {player other : String} (hkeyed : desk.Keyed player)
    (hne : player ≠ other) : desk.All fun record => record.player ≠ other where
  cached slot hcached := by rwa [hkeyed.cached slot hcached]
  stored record hstored := by rwa [hkeyed.stored record hstored]

theorem hold_eq_self {desk : Desk} {slot : Slot} (hcached : desk.cached = some slot) :
    desk.hold slot = desk := by
  cases desk
  cases hcached
  rfl

end Desk

namespace Engine

section Frame

variable {σ : Type} (engine : Engine σ)

/-- Events change nothing but the journal. -/
theorem emitAll_eq (happenings : List Happening) (now : Instant) :
    engine.emitAll happenings now =
      { engine with journal := (engine.emitAll happenings now).journal } := by
  induction happenings generalizing engine with
  | nil => rfl
  | cons first rest ih =>
      have hstep : engine.emitAll (first :: rest) now = (engine.emit first now).emitAll rest now :=
        rfl
      rw [hstep, ih]
      rfl

theorem exists_write_eq [RecordStore σ] (record : PlayerRecord) (now : Instant) :
    ∃ health, engine.write record now =
      ((RecordStore.put engine.store record).1,
        { engine with store := (RecordStore.put engine.store record).2, health }) := by
  unfold write
  rcases RecordStore.put engine.store record with ⟨_ | _, store⟩
  · exact ⟨_, rfl⟩
  · exact ⟨_, rfl⟩

@[simp]
theorem course_emitAll (happenings : List Happening) (now : Instant) :
    (engine.emitAll happenings now).course = engine.course := by
  rw [emitAll_eq]
  rfl

@[simp]
theorem course_persist [RecordStore σ] (record : PlayerRecord) (now : Instant) :
    (engine.persist record now).2.course = engine.course := by
  obtain ⟨health, hwrite⟩ := engine.exists_write_eq record now
  simp [persist, hwrite, course]

@[simp]
theorem course_ensureSession (id owner : String) (now : Instant) :
    (engine.ensureSession id owner now).course = engine.course := by
  unfold ensureSession
  split <;> rfl

@[simp]
theorem course_remember (id : String) (hand : UInt32) (evaluation : Evaluation) :
    (engine.remember id hand evaluation).course = engine.course := by
  unfold remember
  split <;> rfl

end Frame

variable {σ : Type} [RecordStore σ] [LawfulStore σ] (engine : Engine (TracedStore σ))

def desk (player : String) : Desk :=
  { cached := engine.slot? player
    stored := held engine.store player
    accesses := engine.store.accessesOf player }

/-! ### What leaves every desk as it is -/

@[simp]
theorem desk_emitAll (happenings : List Happening) (now : Instant) (player : String) :
    (engine.emitAll happenings now).desk player = engine.desk player := by
  rw [emitAll_eq]
  rfl

@[simp]
theorem desk_track (error : Error) (now : Instant) (player : String) :
    (engine.track error now).desk player = engine.desk player := rfl

@[simp]
theorem desk_ensureSession (id owner : String) (now : Instant) (player : String) :
    (engine.ensureSession id owner now).desk player = engine.desk player := by
  unfold ensureSession
  split <;> rfl

@[simp]
theorem desk_remember (id : String) (hand : UInt32) (evaluation : Evaluation) (player : String) :
    (engine.remember id hand evaluation).desk player = engine.desk player := by
  unfold remember
  split <;> rfl

/-! ### What changes a desk -/

theorem fetch_eq (player : String) :
    (engine.fetch player).1 = .ok (engine.desk player).stored ∨
      ∃ error, (engine.fetch player).1 = .error error :=
  LawfulStore.get_eq engine.store player

theorem desk_fetch (player other : String) :
    (engine.fetch player).2.desk other =
      if player = other then (engine.desk other).read player (engine.fetch player).1.isOk
      else engine.desk other := by
  have haccesses := engine.store.accessesOf_get player other
  have hheld := LawfulStore.held_get engine.store player other
  simp only [desk, fetch, slot?, hheld, haccesses, Desk.read]
  split <;> rfl

theorem desk_write (record : PlayerRecord) (now : Instant) (player : String) :
    (engine.write record now).2.desk player =
      if record.player = player then
        (engine.desk player).write record (engine.write record now).1.isOk
      else engine.desk player := by
  obtain ⟨health, hwrite⟩ := engine.exists_write_eq record now
  have haccesses := engine.store.accessesOf_put record player
  have hheld := LawfulStore.held_put engine.store record player
  rw [hwrite]
  simp only [desk, slot?, haccesses, hheld]
  by_cases heq : record.player = player <;> simp [heq, Desk.write]

theorem desk_persist (record : PlayerRecord) (now : Instant) (player : String) :
    (engine.persist record now).2.desk player =
      if record.player = player then
        (engine.desk player).write record (engine.persist record now).1
      else engine.desk player :=
  engine.desk_write record now player

theorem desk_cache (player : String) (slot : Slot) (other : String) :
    (engine.cache player slot).desk other =
      if player = other then (engine.desk other).hold slot else engine.desk other := by
  simp only [desk, cache, slot?, ExtTreeMap.getElem?_insert, Std.compare_eq_iff_eq, Desk.hold]
  split <;> rfl

theorem desk_erase (player other : String) :
    { engine with players := engine.players.erase player }.desk other =
      if player = other then (engine.desk other).clear else engine.desk other := by
  simp only [desk, slot?, ExtTreeMap.getElem?_erase, Std.compare_eq_iff_eq, Desk.clear]
  split <;> rfl

end Engine

end PokerCoach
