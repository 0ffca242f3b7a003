import Std.Data.ExtTreeMap

/-!
# Data trees

What a data file says, whichever notation it is written in: the tree that both notations of this
library are read into and written from.
-/

namespace PokerCoach.Data

open Std

structure FieldName where
  text : String
  /-- Whether each character that can stand for itself does so, and is not given by its number. A
  number that serves as a name has to be written like this. -/
  plain : Bool := true
  deriving DecidableEq, Repr

instance : Coe String FieldName := ⟨fun text => { text }⟩

/-- What a document may say that no field takes. -/
inductive Foreign where
  /-- A number beyond all that fields hold, or a text with half a surrogate pair. -/
  | unreadable
  /-- A date or a time of day. -/
  | moment
  /-- A number with no digits or beyond all that the notation holds, which is noticed only when it
  is looked at. -/
  | broken
  deriving DecidableEq, Repr

/-- A data tree. Fields keep their order and their repetitions, so that a reader can refuse them. -/
inductive Value where
  | null
  | bool (b : Bool)
  | integer (n : Int)
  | decimal (x : Float)
  | text (s : String)
  | foreign (kind : Foreign)
  | list (items : List Value)
  | record (fields : List (FieldName × Value))

def Value.ofFields (fields : List (String × Value)) : Value :=
  .record (fields.map fun (name, v) => (⟨name, true⟩, v))

def lookup (name : String) (fields : List (FieldName × Value)) : Option Value :=
  (fields.find? (·.1.text == name)).map Prod.snd

mutual

/-- Whether anything in a tree is broken. -/
def Value.isBroken : Value → Bool
  | .foreign kind => kind == .broken
  | .list items => anyBroken items
  | .record fields => anyBrokenField fields
  | _ => false

def anyBroken : List Value → Bool
  | [] => false
  | v :: rest => v.isBroken || anyBroken rest

def anyBrokenField : List (FieldName × Value) → Bool
  | [] => false
  | (_, v) :: rest => v.isBroken || anyBrokenField rest

end

inductive Fault where
  /-- No notation; `left` characters were not read. -/
  | malformed (left : Nat)
  | expected (kind : String)
  | outOfRange
  | unknownName (name : String)
  | missing (field : String)
  | repeated (field : String)
  | leftover
  deriving DecidableEq, Repr

def Fault.message : Fault → String
  | .malformed left => s!"malformed text, {left} characters before its end"
  | .expected kind => s!"expected {kind}"
  | .outOfRange => "number out of range"
  | .unknownName name => s!"unknown name '{name}'"
  | .missing field => s!"missing field '{field}'"
  | .repeated field => s!"repeated field '{field}'"
  | .leftover => "more items than fields"

/-! ### Writing values as data trees -/

class ToData (α : Type) where
  toData : α → Value

export ToData (toData)

instance : ToData Bool := ⟨.bool⟩
instance : ToData Float := ⟨.decimal⟩
instance : ToData String := ⟨.text⟩
instance : ToData Nat := ⟨fun n => .integer n⟩
instance : ToData UInt8 := ⟨fun n => .integer n.toNat⟩
instance : ToData UInt32 := ⟨fun n => .integer n.toNat⟩
instance : ToData UInt64 := ⟨fun n => .integer n.toNat⟩

instance {α : Type} [ToData α] : ToData (Option α) where
  toData
    | none => .null
    | some a => toData a

instance {α : Type} [ToData α] : ToData (List α) where
  toData items := .list (items.map toData)

/-- A map is a record of its entries, ascending by key. -/
instance {α : Type} [ToData α] : ToData (ExtTreeMap String α) where
  toData entries := .ofFields (entries.toList.map fun (key, a) => (key, toData a))

/-- Numbers as keys are written in decimal. -/
instance {α : Type} [ToData α] : ToData (ExtTreeMap UInt32 α) where
  toData entries := .ofFields (entries.toList.map fun (key, a) => (toString key.toNat, toData a))

end PokerCoach.Data
