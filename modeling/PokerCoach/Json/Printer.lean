import PokerCoach.Data.Value
import PokerCoach.Decimal.Notation
import PokerCoach.Text.Basic

/-!
# Writing JSON

One line without blanks, or one line for each item and field, indented by two blanks. A double that
is no finite number is written as null.
-/

namespace PokerCoach.Json

open Data

/-- A character inside quotes; only the quote, the backslash and control characters are escaped. -/
def escape (c : Char) : List Char :=
  if c = '"' then ['\\', '"']
  else if c = '\\' then ['\\', '\\']
  else if c = '\x08' then ['\\', 'b']
  else if c = '\x0c' then ['\\', 'f']
  else if c = '\n' then ['\\', 'n']
  else if c = '\r' then ['\\', 'r']
  else if c = '\t' then ['\\', 't']
  else if c.toNat < 0x20 then '\\' :: 'u' :: Text.hexDigits 4 c.toNat
  else [c]

def quote (s : String) : List Char :=
  '"' :: s.toList.flatMap escape ++ ['"']

def decimalText (x : Float) : List Char :=
  if x.isFinite then (Decimal.compact x).toList else ['n', 'u', 'l', 'l']

def bracket (opening closing : Char) (items : List (List Char)) : List Char :=
  opening :: List.intercalate [','] items ++ [closing]

mutual

def line : Value → List Char
  | .null => ['n', 'u', 'l', 'l']
  | .bool true => ['t', 'r', 'u', 'e']
  | .bool false => ['f', 'a', 'l', 's', 'e']
  | .integer n => (toString n).toList
  | .decimal x => decimalText x
  | .text s => quote s
  | .foreign _ => ['n', 'u', 'l', 'l']
  | .list items => bracket '[' ']' (lineItems items)
  | .record fields => bracket '{' '}' (lineFields fields)

def lineItems : List Value → List (List Char)
  | [] => []
  | v :: rest => line v :: lineItems rest

def lineFields : List (FieldName × Value) → List (List Char)
  | [] => []
  | (name, v) :: rest => (quote name.text ++ ':' :: line v) :: lineFields rest

end

def indent (depth : Nat) : List Char :=
  '\n' :: List.replicate (2 * depth) ' '

/-- Items one below the other; brackets around nothing stay together. -/
def block (depth : Nat) (opening closing : Char) (items : List (List Char)) : List Char :=
  if items.isEmpty then [opening, closing]
  else
    opening :: List.intercalate [','] (items.map (indent (depth + 1) ++ ·))
      ++ indent depth ++ [closing]

mutual

def page (depth : Nat) : Value → List Char
  | .list items => block depth '[' ']' (pageItems (depth + 1) items)
  | .record fields => block depth '{' '}' (pageFields (depth + 1) fields)
  | .null => ['n', 'u', 'l', 'l']
  | .bool b => line (.bool b)
  | .integer n => line (.integer n)
  | .decimal x => decimalText x
  | .text s => quote s
  | .foreign _ => ['n', 'u', 'l', 'l']

def pageItems (depth : Nat) : List Value → List (List Char)
  | [] => []
  | v :: rest => page depth v :: pageItems depth rest

def pageFields (depth : Nat) : List (FieldName × Value) → List (List Char)
  | [] => []
  | (name, v) :: rest => (quote name.text ++ ':' :: ' ' :: page depth v) :: pageFields depth rest

end

def printLine (v : Value) : String :=
  String.ofList (line v)

def printPage (v : Value) : String :=
  String.ofList (page 0 v)

end PokerCoach.Json
