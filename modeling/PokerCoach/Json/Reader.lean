import PokerCoach.Data.Decode
import PokerCoach.Text.Basic

/-!
# Reading JSON

Strict JSON into a data tree, and from there into a value. What is well written and has no reading,
a number beyond all doubles or half a surrogate pair, becomes `Foreign.unreadable`, which is refused
where the value is used and passed over where it is not.
-/

namespace PokerCoach.Json

open Data

def isSpace (c : Char) : Bool :=
  c = ' ' || c = '\t' || c = '\n' || c = '\r'

def skipSpace (cs : List Char) : List Char :=
  cs.dropWhile isSpace

def malformed {α : Type} (rest : List Char) : Except Fault α :=
  .error (.malformed rest.length)

/-- One character of a text, or the 16-bit unit that an escape gives. -/
inductive Piece where
  | char (c : Char)
  | unit (n : Nat)
  deriving DecidableEq, Repr

def escaped? : Char → Option Char
  | '"' => some '"'
  | '\\' => some '\\'
  | '/' => some '/'
  | 'b' => some '\x08'
  | 'f' => some '\x0c'
  | 'n' => some '\n'
  | 'r' => some '\r'
  | 't' => some '\t'
  | _ => none

/-- The pieces of a text up to its closing quote; control characters have to be escaped. -/
def readPieces : List Char → Except Fault (List Piece × List Char)
  | [] => malformed []
  | '"' :: rest => .ok ([], rest)
  | '\\' :: 'u' :: a :: b :: c :: d :: rest =>
      match Text.ofHexDigits? [a, b, c, d] with
      | some n => (readPieces rest).map fun (pieces, rest) => (.unit n :: pieces, rest)
      | none => malformed rest
  | '\\' :: c :: rest =>
      match escaped? c with
      | some e => (readPieces rest).map fun (pieces, rest) => (.char e :: pieces, rest)
      | none => malformed rest
  | c :: rest =>
      if c.toNat < 0x20 ∨ c = '\\' then malformed rest
      else (readPieces rest).map fun (pieces, rest) => (.char c :: pieces, rest)

/-- Joins the two units of a surrogate pair; none if half a pair stands alone. -/
def joinPieces : List Piece → Option (List Char)
  | [] => some []
  | .char c :: rest => (joinPieces rest).map (c :: ·)
  | .unit high :: .unit low :: rest =>
      if 0xD800 ≤ high ∧ high < 0xDC00 then
        if 0xDC00 ≤ low ∧ low < 0xE000 then
          (joinPieces rest).map
            (Char.ofNat (0x10000 + (high - 0xD800) * 0x400 + (low - 0xDC00)) :: ·)
        else none
      else if 0xDC00 ≤ high ∧ high < 0xE000 then none
      else (joinPieces (.unit low :: rest)).map (Char.ofNat high :: ·)
  | .unit n :: rest =>
      if 0xD800 ≤ n ∧ n < 0xE000 then none else (joinPieces rest).map (Char.ofNat n :: ·)

/-- A text after its opening quote; none if it holds half a surrogate pair. -/
def readText (cs : List Char) : Except Fault (Option String × List Char) :=
  (readPieces cs).map fun (pieces, rest) => ((joinPieces pieces).map String.ofList, rest)

/-- Whether no character is given by its number but one that has to be. -/
def isPlain (pieces : List Piece) : Bool :=
  pieces.all fun
    | .char _ => true
    | .unit n => n < 0x20

/-- Digits, at least one. -/
def readDigits (cs : List Char) : Except Fault (List Char × List Char) :=
  let (digits, rest) := Decimal.spanDigits cs
  if digits.isEmpty then malformed rest else .ok (digits, rest)

def readPlaces : List Char → Except Fault (Option (List Char) × List Char)
  | '.' :: rest => (readDigits rest).map fun (digits, rest) => (some digits, rest)
  | rest => .ok (none, rest)

def readExponent : List Char → Except Fault (Option Int × List Char)
  | [] => .ok (none, [])
  | c :: rest =>
      if c = 'e' ∨ c = 'E' then
        let (negative, digits) := Decimal.spanSign rest
        (readDigits digits).map fun (digits, rest) =>
          let n : Int := Decimal.digitsValue digits
          (some (if negative then -n else n), rest)
      else .ok (none, c :: rest)

/-- The tree of a number: whole if it has neither point nor exponent and a word of 64 bits holds it,
with its sign if it has one; a negative zero is not whole. -/
def numberValue (negative : Bool) (whole : List Char) (places : Option (List Char))
    (exponent : Option Int) : Value :=
  let n := Decimal.digitsValue whole
  let fits := if negative then 0 < n ∧ n ≤ Nat.pow 2 63 else n < Nat.pow 2 64
  if places.isNone ∧ exponent.isNone ∧ fits then
    .integer (if negative then -(n : Int) else n)
  else
    match Decimal.stepwise whole (places.getD []) (exponent.getD 0) with
    | some x => .decimal (Decimal.negateIf negative x)
    | none => .foreign .unreadable

/-- A number after its sign; a zero is not followed by more digits. -/
def readNumber (negative : Bool) (cs : List Char) : Except Fault (Value × List Char) := do
  let (whole, rest) ← readDigits cs
  if whole.head? = some '0' ∧ whole.length ≠ 1 then malformed rest
  else
    let (places, rest) ← readPlaces rest
    let (exponent, rest) ← readExponent rest
    pure (numberValue negative whole places exponent, rest)

/-- A field name and the colon after it; none if it is no text. -/
def readName (cs : List Char) : Except Fault (Option FieldName × List Char) :=
  match skipSpace cs with
  | '"' :: rest => do
      let (pieces, rest) ← readPieces rest
      let name := (joinPieces pieces).map fun text => ⟨String.ofList text, isPlain pieces⟩
      match skipSpace rest with
      | ':' :: rest => pure (name, rest)
      | rest => malformed rest
  | rest => malformed rest

/-- The record of fields; no reader takes one that has a field without a name. -/
def recordValue (fields : List (Option FieldName × Value)) : Value :=
  match fields.mapM fun (name, v) => name.map (·, v) with
  | some fields => .record fields
  | none => .foreign .unreadable

mutual

/-- A value after leading space. Every call takes one from `fuel`, and no text of `n` characters
makes a chain of more than `2 * n + 1` calls. -/
def readValue : Nat → List Char → Except Fault (Value × List Char)
  | 0, cs => malformed cs
  | fuel + 1, cs =>
      match skipSpace cs with
      | 'n' :: 'u' :: 'l' :: 'l' :: rest => .ok (.null, rest)
      | 't' :: 'r' :: 'u' :: 'e' :: rest => .ok (.bool true, rest)
      | 'f' :: 'a' :: 'l' :: 's' :: 'e' :: rest => .ok (.bool false, rest)
      | '"' :: rest =>
          (readText rest).map fun (s, rest) => (s.elim (.foreign .unreadable) .text, rest)
      | '[' :: rest =>
          match skipSpace rest with
          | ']' :: rest => .ok (.list [], rest)
          | _ => (readItems fuel rest).map fun (items, rest) => (.list items, rest)
      | '{' :: rest =>
          match skipSpace rest with
          | '}' :: rest => .ok (.record [], rest)
          | _ => (readFields fuel rest).map fun (fields, rest) => (recordValue fields, rest)
      | '-' :: rest => readNumber true rest
      | rest => readNumber false rest

def readItems : Nat → List Char → Except Fault (List Value × List Char)
  | 0, cs => malformed cs
  | fuel + 1, cs => do
      let (item, rest) ← readValue fuel cs
      match skipSpace rest with
      | ']' :: rest => pure ([item], rest)
      | ',' :: rest =>
          let (items, rest) ← readItems fuel rest
          pure (item :: items, rest)
      | rest => malformed rest

def readFields : Nat → List Char → Except Fault (List (Option FieldName × Value) × List Char)
  | 0, cs => malformed cs
  | fuel + 1, cs => do
      let (name, rest) ← readName cs
      let (v, rest) ← readValue fuel rest
      match skipSpace rest with
      | '}' :: rest => pure ([(name, v)], rest)
      | ',' :: rest =>
          let (fields, rest) ← readFields fuel rest
          pure ((name, v) :: fields, rest)
      | rest => malformed rest

end

def read (cs : List Char) : Except Fault Value := do
  let (v, rest) ← readValue (2 * cs.length + 1) cs
  if (skipSpace rest).isEmpty then pure v else malformed rest

def decode {α : Type} [OfData α] (cs : List Char) : Except Fault α := do
  ofData .json (← read cs)

end PokerCoach.Json
