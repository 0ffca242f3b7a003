import PokerCoach.Store.Basic

/-!
# Stores that fail

A store whose reads and writes fail in any pattern. The pattern says of each read and each write,
counted from the first, whether it fails; one that fails leaves the records as they are.
-/

namespace PokerCoach

structure FaultyStore (σ : Type) where
  inner : σ
  readFails : Nat → Bool := fun _ => false
  writeFails : Nat → Bool := fun _ => false
  reads : Nat := 0
  writes : Nat := 0

namespace FaultyStore

variable {σ : Type}

def readFailed : Error := .storage "/flaky" "read failed"

def writeFailed : Error := .storage "/flaky" "disk full"

instance [RecordStore σ] : RecordStore (FaultyStore σ) where
  get store player :=
    let counted := { store with reads := store.reads + 1 }
    if store.readFails store.reads then (.error readFailed, counted)
    else
      let (found, inner) := RecordStore.get store.inner player
      (found, { counted with inner })
  put store record :=
    let counted := { store with writes := store.writes + 1 }
    if store.writeFails store.writes then (.error writeFailed, counted)
    else
      let (done, inner) := RecordStore.put store.inner record
      (done, { counted with inner })
  list store limit :=
    let (found, inner) := RecordStore.list store.inner limit
    (found, { store with inner })
  delete store player :=
    let (done, inner) := RecordStore.delete store.inner player
    (done, { store with inner })

end FaultyStore

end PokerCoach
