import PokerCoach.Toml.Scalar
import PokerCoach.Toml.Document
import PokerCoach.Data.Decode

/-!
# Reading TOML

A TOML 1.1 document into a data tree, and from there into a value.
-/

namespace PokerCoach.Toml

open Data

def malformed {α : Type} (rest : List Char) : Except Fault α :=
  .error (.malformed rest.length)

def isBlank (c : Char) : Bool :=
  c = ' ' || c = '\t'

def skipBlanks (cs : List Char) : List Char :=
  cs.dropWhile isBlank

/-- Characters that comments and texts may hold as they are: no control character but the tab. -/
def isPlain (c : Char) : Bool :=
  c = '\t' || (0x20 ≤ c.toNat && c.toNat ≠ 0x7F)

def newline? : List Char → Option (List Char)
  | '\n' :: rest => some rest
  | '\r' :: '\n' :: rest => some rest
  | _ => none

def skipComment : List Char → List Char
  | '#' :: rest => rest.dropWhile isPlain
  | rest => rest

def skipLines : Nat → List Char → List Char
  | 0, cs => cs
  | fuel + 1, cs =>
      let rest := skipComment (skipBlanks cs)
      match newline? rest with
      | some rest => skipLines fuel rest
      | none => rest

def skipAll (cs : List Char) : List Char :=
  skipLines (cs.length + 1) cs

/-- The rest of a line that holds nothing more. -/
def endLine (cs : List Char) : Except Fault (List Char) :=
  match skipComment (skipBlanks cs) with
  | [] => .ok []
  | rest =>
      match newline? rest with
      | some rest => .ok rest
      | none => malformed rest

/-- The character that a letter after a backslash stands for. -/
def escaped? : Char → Option Char
  | 'b' => some '\x08'
  | 't' => some '\t'
  | 'n' => some '\n'
  | 'f' => some '\x0c'
  | 'r' => some '\r'
  | 'e' => some '\x1b'
  | '"' => some '"'
  | '\\' => some '\\'
  | _ => none

/-- The character with a given number, which is no half of a surrogate pair. -/
def scalarChar? (n : Nat) : Option Char :=
  if n < 0xD800 ∨ (0xE000 ≤ n ∧ n < 0x110000) then some (Char.ofNat n) else none

/-- The character of an escape after its backslash, and what follows it. -/
def readEscape (cs : List Char) : Except Fault (Char × List Char) :=
  match cs with
  | 'x' :: rest => numbered 2 rest
  | 'u' :: rest => numbered 4 rest
  | 'U' :: rest => numbered 8 rest
  | c :: rest =>
      match escaped? c with
      | some e => .ok (e, rest)
      | none => malformed rest
  | [] => malformed []
where
  numbered (width : Nat) (cs : List Char) : Except Fault (Char × List Char) :=
    let digits := cs.take width
    if digits.length < width then malformed cs
    else
      match (Text.ofHexDigits? digits).bind scalarChar? with
      | some c => .ok (c, cs.drop width)
      | none => malformed cs

/-- A text on one line with escapes, after its opening quote. -/
def readBasic : Nat → List Char → Except Fault (List Char × List Char)
  | 0, cs => malformed cs
  | _, [] => malformed []
  | fuel + 1, c :: rest =>
      if c = '"' then .ok ([], rest)
      else if c = '\\' then do
        let (e, rest) ← readEscape rest
        let (text, rest) ← readBasic fuel rest
        pure (e :: text, rest)
      else if isPlain c then do
        let (text, rest) ← readBasic fuel rest
        pure (c :: text, rest)
      else malformed rest

def readLiteral : List Char → Except Fault (List Char × List Char)
  | [] => malformed []
  | '\'' :: rest => .ok ([], rest)
  | c :: rest =>
      if isPlain c then do
        let (text, rest) ← readLiteral rest
        pure (c :: text, rest)
      else malformed rest

/-- The closing of a text over several lines: three quotes, and up to two more that belong to the
text. -/
def closing? (quote : Char) (cs : List Char) : Option (List Char × List Char) :=
  let run := (cs.takeWhile (· = quote)).take 5
  if 3 ≤ run.length then some (run.drop 3, cs.drop run.length) else none

/-- A text after its leading blanks and line ends. -/
def skipFold : List Char → List Char
  | '\r' :: '\n' :: rest => skipFold rest
  | c :: rest => if isBlank c || c = '\n' then skipFold rest else c :: rest
  | [] => []

/-- What follows a backslash at the end of a line, with the blank space before the next word. -/
def foldedLine? (cs : List Char) : Option (List Char) :=
  (newline? (skipBlanks cs)).map skipFold

/-- A text over several lines, after its opening quotes. Line ends stay as they are written; only
with double quotes are there escapes. -/
def readLong (quote : Char) : Nat → List Char → Except Fault (List Char × List Char)
  | 0, cs => malformed cs
  | fuel + 1, cs =>
      match closing? quote cs with
      | some end_ => .ok end_
      | none =>
          match cs with
          | [] => malformed []
          | '\r' :: '\n' :: rest => do
              let (text, rest) ← readLong quote fuel rest
              pure ('\r' :: '\n' :: text, rest)
          | c :: rest =>
              if c = '\\' ∧ quote = '"' then
                match foldedLine? rest with
                | some rest => readLong quote fuel rest
                | none => do
                    let (e, rest) ← readEscape rest
                    let (text, rest) ← readLong quote fuel rest
                    pure (e :: text, rest)
              else if isPlain c || c = '\n' then do
                let (text, rest) ← readLong quote fuel rest
                pure (c :: text, rest)
              else malformed rest

/-- A line end right after the opening quotes is no part of the text. -/
def dropNewline (cs : List Char) : List Char :=
  (newline? cs).getD cs

/-- A text in any of its four forms, if one starts here. -/
def readText? (cs : List Char) : Option (Except Fault (List Char × List Char)) :=
  match cs with
  | '"' :: '"' :: '"' :: rest => some (readLong '"' (rest.length + 1) (dropNewline rest))
  | '\'' :: '\'' :: '\'' :: rest => some (readLong '\'' (rest.length + 1) (dropNewline rest))
  | '"' :: rest => some (readBasic (rest.length + 1) rest)
  | '\'' :: rest => some (readLiteral rest)
  | _ => none

def isBareChar (c : Char) : Bool :=
  c.isAlphanum || c = '_' || c = '-'

def readKeyPart (cs : List Char) : Except Fault (String × List Char) :=
  match cs with
  | '"' :: rest =>
      (readBasic (rest.length + 1) rest).map fun (text, rest) => (String.ofList text, rest)
  | '\'' :: rest => (readLiteral rest).map fun (text, rest) => (String.ofList text, rest)
  | cs =>
      let part := cs.takeWhile isBareChar
      if part.isEmpty then malformed cs
      else .ok (String.ofList part, cs.dropWhile isBareChar)

/-- The number of parts that a key may have, and of brackets and braces that a value may open
inside each other. -/
def limit : Nat := 80

/-- Parts with points between them, and blanks around those. -/
def readKeyParts : Nat → List Char → Except Fault (List String × List Char)
  | 0, cs => malformed cs
  | fuel + 1, cs => do
      let (part, rest) ← readKeyPart (skipBlanks cs)
      match skipBlanks rest with
      | '.' :: rest =>
          let (parts, rest) ← readKeyParts fuel rest
          pure (part :: parts, rest)
      | rest => pure ([part], rest)

def readKey (cs : List Char) : Except Fault (List String × List Char) := do
  let (key, rest) ← readKeyParts (cs.length + 1) cs
  if limit < key.length then malformed rest else pure (key, rest)

/-- A key and the equals sign after it, with what `skip` passes over on either side of the sign. -/
def readAssigned (skip : List Char → List Char) (cs : List Char) :
    Except Fault (List String × List Char) := do
  let (key, rest) ← readKey cs
  match skip rest with
  | '=' :: rest => pure (key, skip rest)
  | rest => malformed rest

def assignKey (key : List String) (v : Value) (entries : Entries) : Except Fault Entries :=
  Entries.assign v key.dropLast (key.getLast?.getD "") entries

mutual

/-- A value that may open up to `depth` brackets and braces inside each other. Every call takes one
from `fuel`, and each second one consumes a character. -/
def readValue : Nat → Nat → List Char → Except Fault (Value × List Char)
  | 0, _, cs => malformed cs
  | fuel + 1, depth, cs =>
      match readText? cs with
      | some text => text.map fun (text, rest) => (.text (String.ofList text), rest)
      | none =>
          match cs, depth with
          | '[' :: rest, depth + 1 =>
              (readItems fuel depth (skipAll rest)).map fun (items, rest) => (.list items, rest)
          | '\x7b' :: rest, depth + 1 =>
              (readFields fuel depth [] (skipAll rest)).map fun (entries, rest) =>
                (.record (fieldValues entries), rest)
          | cs, _ =>
              let (word, rest) := spanWord cs
              match scalar? word with
              | some v => .ok (v, rest)
              | none => malformed cs

/-- Items up to the closing bracket; a comma may follow the last one. -/
def readItems : Nat → Nat → List Char → Except Fault (List Value × List Char)
  | 0, _, cs => malformed cs
  | _, _, ']' :: rest => .ok ([], rest)
  | fuel + 1, depth, cs => do
      let (item, rest) ← readValue fuel depth cs
      match skipAll rest with
      | ']' :: rest => pure ([item], rest)
      | ',' :: rest =>
          let (items, rest) ← readItems fuel depth (skipAll rest)
          pure (item :: items, rest)
      | rest => malformed rest

/-- Fields up to the closing brace, added to those before them; a comma may follow the last one. -/
def readFields : Nat → Nat → Entries → List Char → Except Fault (Entries × List Char)
  | 0, _, _, cs => malformed cs
  | _, _, entries, '\x7d' :: rest => .ok (entries, rest)
  | fuel + 1, depth, entries, cs => do
      let (key, rest) ← readAssigned skipAll cs
      let (v, rest) ← readValue fuel depth rest
      let entries ← assignKey key v entries
      match skipAll rest with
      | '\x7d' :: rest => pure (entries, rest)
      | ',' :: rest => readFields fuel depth entries (skipAll rest)
      | rest => malformed rest

end

/-- Applies a change to the table that a header names by its last part. -/
def openAt (change : String → Entries → Except Fault Entries) (path : List String)
    (root : Entries) : Except Fault Entries :=
  Entries.at (change (path.getLast?.getD "")) path.dropLast root

/-- The lines of a document from here on; `path` is the header they stand under. -/
def readLines : Nat → List String → Entries → List Char → Except Fault Entries
  | 0, _, _, cs => malformed cs
  | fuel + 1, path, root, cs =>
      match skipAll cs with
      | [] => .ok root
      | '[' :: '[' :: rest => do
          let (path, rest) ← readKey rest
          match rest with
          | ']' :: ']' :: rest =>
              let root ← openAt Entries.appendTable path root
              readLines fuel path root (← endLine rest)
          | rest => malformed rest
      | '[' :: rest => do
          let (path, rest) ← readKey rest
          match rest with
          | ']' :: rest =>
              let root ← openAt Entries.openTable path root
              readLines fuel path root (← endLine rest)
          | rest => malformed rest
      | cs => do
          let (key, rest) ← readAssigned skipBlanks cs
          let (v, rest) ← readValue (2 * rest.length + 1) limit rest
          let root ← Entries.at (assignKey key v) path root
          readLines fuel path root (← endLine rest)

/-- The record that a document holds; a byte order mark before it is passed over. -/
def read (cs : List Char) : Except Fault Value := do
  let cs := if cs.head? = some '\ufeff' then cs.drop 1 else cs
  let root ← readLines (cs.length + 1) [] [] cs
  pure (.record (fieldValues root))

def decode {α : Type} [OfData α] (cs : List Char) : Except Fault α := do
  ofData .toml (← read cs)

end PokerCoach.Toml
