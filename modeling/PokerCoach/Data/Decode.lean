import PokerCoach.Data.Value
import PokerCoach.Decimal.Reader
import Std.Data.ExtTreeMap

/-!
# Reading values from data trees

A structure is read from a record of its fields, where fields of other names are passed over and a
field of its own that comes twice is refused, or from the list of its fields in their order. What
else may stand for a structure or a name is up to the dialect of the notation.
-/

namespace PokerCoach.Data

open Std

/-! ### Dialects

The notations agree on what a tree is, but not on all that may stand for a structure or for a name. -/

structure Dialect where
  /-- Whether a list may have items left over when it has filled all fields of a structure. They are
  not looked at. -/
  surplus : Bool
  /-- Whether a value adds nothing to a name that it stands under alone. -/
  isNothing : Value → Bool

def Value.isNull : Value → Bool
  | .null => true
  | _ => false

/-- Whether a value is a record or a list without anything in it. -/
def Value.isHollow : Value → Bool
  | .record [] => true
  | .list [] => true
  | _ => false

/-- Lists fit their structures exactly, and null stands under a name. -/
def Dialect.json : Dialect where
  surplus := false
  isNothing := Value.isNull

/-- Lists may be longer than their structures. There is no null, so that an empty table or array
stands under a name. -/
def Dialect.toml : Dialect where
  surplus := true
  isNothing := Value.isHollow

/-- For what is kept as a tree until it is known what it stands for: an empty record may stand under
a name as well. -/
def Dialect.kept : Dialect where
  surplus := false
  isNothing v :=
    match v with
    | .record [] => true
    | v => v.isNull

/-! ### Values -/

class OfData (α : Type) where
  ofData : Dialect → Value → Except Fault α

export OfData (ofData)

instance : OfData Bool where
  ofData
    | _, .bool b => .ok b
    | _, _ => .error (.expected "a truth value")

instance : OfData String where
  ofData
    | _, .text s => .ok s
    | _, _ => .error (.expected "a text")

/-- A whole number serves as a double if a double is near it. -/
instance : OfData Float where
  ofData
    | _, .decimal x => .ok x
    | _, .integer n =>
        let x := Decimal.negateIf (n < 0) (Decimal.nearest n.natAbs 0)
        if x.isFinite then .ok x else .error .outOfRange
    | _, _ => .error (.expected "a number")

/-- A whole number below `bound`; `1.0` is none. -/
def ofDataBelow (bound : Nat) : Value → Except Fault Nat
  | .integer (.ofNat n) => if n < bound then .ok n else .error .outOfRange
  | .integer _ => .error .outOfRange
  | _ => .error (.expected "a whole number")

instance : OfData UInt8 where
  ofData _ v := (ofDataBelow UInt8.size v).map UInt8.ofNat

instance : OfData UInt32 where
  ofData _ v := (ofDataBelow UInt32.size v).map UInt32.ofNat

instance : OfData UInt64 where
  ofData _ v := (ofDataBelow UInt64.size v).map UInt64.ofNat

instance {α : Type} [OfData α] : OfData (Option α) where
  ofData
    | _, .null => .ok none
    | dialect, v => (ofData dialect v).map some

instance {α : Type} [OfData α] : OfData (List α) where
  ofData
    | dialect, .list items => items.mapM (ofData dialect)
    | _, _ => .error (.expected "a list")

/-- Of entries with one key the last stays. -/
def mapOfEntries {κ α : Type} [Ord κ] [TransOrd κ] (entries : List (κ × α)) : ExtTreeMap κ α :=
  entries.foldl (fun m (key, a) => m.insert key a) ∅

instance {α : Type} [OfData α] : OfData (ExtTreeMap String α) where
  ofData
    | dialect, .record fields => do
        let entries ← fields.mapM fun (key, v) => do pure (key.text, ← ofData dialect v)
        pure (mapOfEntries entries)
    | _, _ => .error (.expected "a record")

/-- A number as a key: digits that stand for themselves, no zero before others. -/
def ofKey? (key : FieldName) : Option UInt32 :=
  let digits := key.text.toList
  if !key.plain ∨ digits.isEmpty ∨ !digits.all Char.isDigit
      ∨ (digits.head? = some '0' ∧ digits.length ≠ 1) then
    none
  else if Decimal.digitsValue digits < UInt32.size then
    some (UInt32.ofNat (Decimal.digitsValue digits))
  else none

instance {α : Type} [OfData α] : OfData (ExtTreeMap UInt32 α) where
  ofData
    | dialect, .record fields => do
        let entries ← fields.mapM fun (key, v) =>
          match ofKey? key with
          | some n => do pure (n, ← ofData dialect v)
          | none => .error (.unknownName key.text)
        pure (mapOfEntries entries)
    | _, _ => .error (.expected "a record")

/-- The value of a name, which may also stand as the only field of a record, over nothing. -/
def ofName {α : Type} (names : List (String × α)) (dialect : Dialect) : Value → Except Fault α
  | .text s => find s
  | .record [(name, v)] =>
      if dialect.isNothing v then find name.text else .error (.expected "a name alone")
  | _ => .error (.expected "a name")
where
  find (s : String) : Except Fault α :=
    match names.lookup s with
    | some a => .ok a
    | none => .error (.unknownName s)

structure Fields where
  dialect : Dialect
  found : List (String × Value)
  /-- Whether they came as a list, in which only defaulted fields may be left out. -/
  listed : Bool := false

def repeated? : List String → Option String
  | [] => none
  | name :: names => if names.contains name then some name else repeated? names

/-- The fields with the given names. A date or time has none of them, as a record of other fields
would. -/
def fields (names : List String) (dialect : Dialect) : Value → Except Fault Fields
  | .record entries =>
      let (known, other) := entries.partition fun (name, _) => names.contains name.text
      let found := known.map fun (name, v) => (name.text, v)
      match repeated? (found.map Prod.fst) with
      | some name => .error (.repeated name)
      | none =>
          if anyBrokenField other then .error (.expected "a number") else .ok { dialect, found }
  | .list items =>
      if names.length < items.length ∧ !dialect.surplus then .error .leftover
      else .ok { dialect, found := names.zip items, listed := true }
  | .foreign .moment => .ok { dialect, found := [] }
  | _ => .error (.expected "a record")

variable {α : Type} [OfData α]

def Fields.required (fs : Fields) (name : String) : Except Fault α :=
  match fs.found.lookup name with
  | some v => ofData fs.dialect v
  | none => .error (.missing name)

/-- A field that may be absent, or null. -/
def Fields.optional (fs : Fields) (name : String) : Except Fault (Option α) :=
  match fs.found.lookup name with
  | some v => ofData fs.dialect v
  | none => if fs.listed then .error (.missing name) else .ok none

/-- A field that has a default when it is absent; null is no absence. -/
def Fields.defaulted (fs : Fields) (name : String) (default : α) : Except Fault α :=
  match fs.found.lookup name with
  | some v => ofData fs.dialect v
  | none => .ok default

end PokerCoach.Data
