import PokerCoach.Basic
import PokerCoach.Progress.Record

/-!
# Record stores

Player records by player, always written whole. Every operation gives the store as it is afterwards,
so that a store may also count, or fail in a pattern.
-/

namespace PokerCoach

class RecordStore (σ : Type) where
  /-- The record of a player; none if there is no such player. -/
  get : σ → String → Except Error (Option PlayerRecord) × σ
  /-- Writes a record in place of the one its player had. -/
  put : σ → PlayerRecord → Except Error Unit × σ
  /-- Up to a number of records, the latest updated first. -/
  list : σ → Nat → Except Error (List PlayerRecord) × σ
  /-- Removes the record of a player, if there is one. -/
  delete : σ → String → Except Error Unit × σ

namespace RecordStore

variable {σ : Type} [RecordStore σ]

def has (store : σ) (player : String) : Except Error Bool × σ :=
  let (found, store) := get store player
  (found.map Option.isSome, store)

end RecordStore

def latestRecords (limit : Nat) (records : List PlayerRecord) : List PlayerRecord :=
  (records.mergeSort fun a b => decide (b.updatedAt ≤ a.updatedAt)).take limit

/-- A store that is chosen at run time among two kinds. -/
instance {σ τ : Type} [RecordStore σ] [RecordStore τ] : RecordStore (σ ⊕ τ) where
  get
    | .inl store, player => (RecordStore.get store player).map id .inl
    | .inr store, player => (RecordStore.get store player).map id .inr
  put
    | .inl store, record => (RecordStore.put store record).map id .inl
    | .inr store, record => (RecordStore.put store record).map id .inr
  list
    | .inl store, limit => (RecordStore.list store limit).map id .inl
    | .inr store, limit => (RecordStore.list store limit).map id .inr
  delete
    | .inl store, player => (RecordStore.delete store player).map id .inl
    | .inr store, player => (RecordStore.delete store player).map id .inr

end PokerCoach
