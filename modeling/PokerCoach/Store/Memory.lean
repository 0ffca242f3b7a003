import PokerCoach.Store.Basic

/-!
# Records in memory
-/

namespace PokerCoach

open Std

structure MemoryStore where
  records : ExtTreeMap String PlayerRecord := ∅
  deriving DecidableEq

namespace MemoryStore

def empty : MemoryStore := {}

def find? (store : MemoryStore) (player : String) : Option PlayerRecord :=
  store.records[player]?

def insert (store : MemoryStore) (record : PlayerRecord) : MemoryStore :=
  ⟨store.records.insert record.player record⟩

def erase (store : MemoryStore) (player : String) : MemoryStore :=
  ⟨store.records.erase player⟩

def size (store : MemoryStore) : Nat :=
  store.records.size

/-- Every operation succeeds. -/
instance : RecordStore MemoryStore where
  get store player := (.ok (store.find? player), store)
  put store record := (.ok (), store.insert record)
  list store limit := (.ok (latestRecords limit store.records.values), store)
  delete store player := (.ok (), store.erase player)

@[simp, grind =]
theorem find?_empty (player : String) : empty.find? player = none := by
  simp [find?, empty]

@[simp, grind =]
theorem find?_insert (store : MemoryStore) (record : PlayerRecord) (player : String) :
    (store.insert record).find? player =
      if record.player = player then some record else store.find? player := by
  simp [find?, insert, ExtTreeMap.getElem?_insert]

@[simp, grind =]
theorem find?_erase (store : MemoryStore) (player other : String) :
    (store.erase player).find? other = if player = other then none else store.find? other := by
  simp [find?, erase, ExtTreeMap.getElem?_erase]

end MemoryStore

end PokerCoach
