import PokerCoach.Store.Memory
import PokerCoach.Store.Faulty

/-!
# Stores that may fail

What is asked of a store when nothing is asked of its luck: a read that works gives the record that
is held, a write that works replaces the record of its player, and whatever fails leaves all records
as they are. Nothing is said of which reads and writes fail.
-/

namespace PokerCoach

class LawfulStore (σ : Type) [RecordStore σ] where
  held : σ → String → Option PlayerRecord
  get_eq (store : σ) (player : String) :
    (RecordStore.get store player).1 = .ok (held store player) ∨
      ∃ error, (RecordStore.get store player).1 = .error error
  held_get (store : σ) (player other : String) :
    held (RecordStore.get store player).2 other = held store other
  held_put (store : σ) (record : PlayerRecord) (player : String) :
    held (RecordStore.put store record).2 player =
      if (RecordStore.put store record).1.isOk ∧ record.player = player then some record
      else held store player

instance : LawfulStore MemoryStore where
  held := MemoryStore.find?
  get_eq _ _ := .inl rfl
  held_get _ _ _ := rfl
  held_put store record player := by
    simp [RecordStore.put, Except.isOk, Except.toBool]

/-- Failing in a pattern keeps the laws. -/
instance {σ : Type} [RecordStore σ] [LawfulStore σ] : LawfulStore (FaultyStore σ) where
  held store := LawfulStore.held store.inner
  get_eq store player := by
    by_cases hfails : store.readFails store.reads = true
    · exact .inr ⟨FaultyStore.readFailed, by simp [RecordStore.get, hfails]⟩
    · simpa [RecordStore.get, hfails] using LawfulStore.get_eq store.inner player
  held_get store player other := by
    by_cases hfails : store.readFails store.reads = true
    · simp [RecordStore.get, hfails]
    · simpa [RecordStore.get, hfails] using LawfulStore.held_get store.inner player other
  held_put store record player := by
    by_cases hfails : store.writeFails store.writes = true
    · simp [RecordStore.put, hfails, Except.isOk, Except.toBool]
    · simpa [RecordStore.put, hfails] using LawfulStore.held_put store.inner record player

export LawfulStore (held)

/-- Records stay with their players. -/
theorem MemoryStore.player_of_held_insert {store : MemoryStore}
    (hstore : ∀ player record, held store player = some record → record.player = player)
    (added : PlayerRecord) (player : String) (record : PlayerRecord)
    (hheld : held (store.insert added) player = some record) : record.player = player := by
  rw [show held (store.insert added) player = _ from find?_insert store added player] at hheld
  split at hheld
  · next hplayer =>
      cases hheld
      exact hplayer
  · exact hstore player record hheld

/-! ### Stores that are watched

A store together with the list of all that was asked of it. The list changes no answer; it is there
to say which reads and writes a run made and how they went. -/

inductive Access where
  | read (player : String) (worked : Bool)
  /-- A write, with the record that the store held of the player before. -/
  | write (before : Option PlayerRecord) (record : PlayerRecord) (worked : Bool)
  deriving DecidableEq

def Access.player : Access → String
  | .read player _ => player
  | .write _ record _ => record.player

structure TracedStore (σ : Type) where
  inner : σ
  accesses : List Access := []

namespace TracedStore

def watch {σ : Type} (store : σ) : TracedStore σ :=
  { inner := store }

variable {σ : Type} [RecordStore σ] [LawfulStore σ]

instance : RecordStore (TracedStore σ) where
  get store player :=
    let (found, inner) := RecordStore.get store.inner player
    (found, { inner, accesses := store.accesses ++ [.read player found.isOk] })
  put store record :=
    let (done, inner) := RecordStore.put store.inner record
    let access := .write (held store.inner record.player) record done.isOk
    (done, { inner, accesses := store.accesses ++ [access] })
  list store limit :=
    let (found, inner) := RecordStore.list store.inner limit
    (found, { store with inner })
  delete store player :=
    let (done, inner) := RecordStore.delete store.inner player
    (done, { store with inner })

instance : LawfulStore (TracedStore σ) where
  held store := held store.inner
  get_eq store player := LawfulStore.get_eq store.inner player
  held_get store player other := LawfulStore.held_get store.inner player other
  held_put store record player := LawfulStore.held_put store.inner record player

def accessesOf (store : TracedStore σ) (player : String) : List Access :=
  store.accesses.filter fun access => access.player == player

theorem accessesOf_get (store : TracedStore σ) (player other : String) :
    (RecordStore.get store player).2.accessesOf other =
      if player = other then
        store.accessesOf other ++ [.read player (RecordStore.get store player).1.isOk]
      else store.accessesOf other := by
  by_cases heq : player = other <;>
    simp [accessesOf, RecordStore.get, List.filter_append, Access.player, heq]

theorem accessesOf_put (store : TracedStore σ) (record : PlayerRecord) (player : String) :
    (RecordStore.put store record).2.accessesOf player =
      if record.player = player then
        store.accessesOf player ++
          [.write (held store player) record (RecordStore.put store record).1.isOk]
      else store.accessesOf player := by
  by_cases heq : record.player = player
  · subst heq
    simp [accessesOf, RecordStore.put, List.filter_append, Access.player, held]
  · simp [accessesOf, RecordStore.put, List.filter_append, Access.player, heq]

end TracedStore

end PokerCoach
