import PokerCoach.Data.Value
import PokerCoach.Decimal.Notation
import PokerCoach.Text.Basic

/-!
# Writing TOML

A record as one line for each of its fields, with all that is inside of them on that line. TOML has
no null.
-/

namespace PokerCoach.Toml

open Data

def escape (c : Char) : List Char :=
  if c = '"' then ['\\', '"']
  else if c = '\\' then ['\\', '\\']
  else if c.toNat < 0x20 ∨ c.toNat = 0x7F then '\\' :: 'u' :: Text.hexDigits 4 c.toNat
  else [c]

def quote (s : String) : List Char :=
  '"' :: s.toList.flatMap escape ++ ['"']

def decimalText (x : Float) : List Char :=
  if x.isNaN then ['n', 'a', 'n'] else (Decimal.compact x).toList

def between (opening closing : Char) (items : List (List Char)) : List Char :=
  opening :: List.intercalate [',', ' '] items ++ [closing]

mutual

/-- A value within a line. -/
def inline? : Value → Option (List Char)
  | .null => none
  | .foreign _ => none
  | .bool true => some ['t', 'r', 'u', 'e']
  | .bool false => some ['f', 'a', 'l', 's', 'e']
  | .integer n => some (toString n).toList
  | .decimal x => some (decimalText x)
  | .text s => some (quote s)
  | .list items => (inlineItems? items).map (between '[' ']')
  | .record fields => (inlineFields? fields).map (between '\x7b' '\x7d')

def inlineItems? : List Value → Option (List (List Char))
  | [] => some []
  | v :: rest => do pure ((← inline? v) :: (← inlineItems? rest))

def inlineFields? : List (FieldName × Value) → Option (List (List Char))
  | [] => some []
  | (name, v) :: rest => do
      pure ((quote name.text ++ ' ' :: '=' :: ' ' :: (← inline? v)) :: (← inlineFields? rest))

end

def print? : Value → Option String
  | .record fields => do
      pure (String.ofList ((← inlineFields? fields).flatMap (· ++ ['\n'])))
  | _ => none

end PokerCoach.Toml
