import PokerCoach.Time.Instant
import PokerCoach.Text.Basic
import PokerCoach.Data.Decode

/-!
# Time stamps

Instants as RFC 3339 texts. Written in universal time with as few of 0, 3, 6 or 9 places of the
second as are exact; read with any offset, with short numbers and with blanks between the parts.
-/

namespace PokerCoach.Time

open Data

/-- A number of at least `width` digits. -/
def padded (width n : Nat) : List Char :=
  let digits := Nat.toDigits 10 n
  List.replicate (width - digits.length) '0' ++ digits

/-- Four digits, and a sign outside of 0 to 9999. -/
def yearText (year : Int) : List Char :=
  if 0 ≤ year ∧ year ≤ 9999 then padded 4 year.toNat
  else (if year < 0 then '-' else '+') :: padded 4 year.natAbs

/-- The nanoseconds within a second, after a point unless there are none. -/
def placesText (nano : Nat) : List Char :=
  if nano = 0 then []
  else if nano % 1000000 = 0 then '.' :: padded 3 (nano / 1000000)
  else if nano % 1000 = 0 then '.' :: padded 6 (nano / 1000)
  else '.' :: padded 9 nano

namespace Instant

def dateText (t : Instant) : List Char :=
  yearText t.year ++ '-' :: padded 2 t.month ++ '-' :: padded 2 t.day

def stamp (t : Instant) : String :=
  let leap := if 1000000000 ≤ t.nano then 1 else 0
  String.ofList <|
    t.dateText ++ 'T' :: padded 2 t.hour ++ ':' :: padded 2 t.minute
      ++ ':' :: padded 2 (t.second + leap) ++ placesText (t.nano % 1000000000) ++ ['Z']

def minuteStamp (t : Instant) : String :=
  String.ofList (t.dateText ++ ' ' :: padded 2 t.hour ++ ':' :: padded 2 t.minute)

end Instant

/-- A number of one to `width` digits, blanks before it allowed. -/
def readPart (width : Nat) (cs : List Char) : Option (Nat × List Char) :=
  let cs := Text.trimStart cs
  let digits := (Decimal.spanDigits cs).1.take width
  if digits.isEmpty then none else some (Decimal.digitsValue digits, cs.drop digits.length)

/-- A year: up to four digits, or a sign and any number of them. -/
def readYear (cs : List Char) : Option (Int × List Char) :=
  match Text.trimStart cs with
  | '-' :: rest => (signedYear rest).map fun (n, rest) => (-n, rest)
  | '+' :: rest => signedYear rest
  | rest => (readPart 4 rest).map fun (n, rest) => ((n : Int), rest)
where
  signedYear (cs : List Char) : Option (Int × List Char) :=
    let (digits, rest) := Decimal.spanDigits cs
    if digits.isEmpty then none else some ((Decimal.digitsValue digits : Int), rest)

/-- The given mark, blanks before it allowed. -/
def readMark (mark : Char) (cs : List Char) : Option (List Char) :=
  match Text.trimStart cs with
  | c :: rest => if c = mark then some rest else none
  | [] => none

/-- Nanoseconds after a point; digits beyond the ninth are dropped. -/
def readPlaces : List Char → Option (Nat × List Char)
  | '.' :: rest =>
      let (digits, rest) := Decimal.spanDigits rest
      if digits.isEmpty then none
      else
        let kept := digits.take 9
        some (Decimal.digitsValue kept * Nat.pow 10 (9 - kept.length), rest)
  | rest => some (0, rest)

/-- Minutes ahead of universal time: `Z`, `UTC`, or a sign with two digits each of hours and
minutes. -/
def readOffset (cs : List Char) : Option (Int × List Char) :=
  match cs with
  | u :: t :: c :: rest =>
      if u.toUpper = 'U' ∧ t.toUpper = 'T' ∧ c.toUpper = 'C' then some (0, rest)
      else readSigned cs
  | _ => readSigned cs
where
  readSigned : List Char → Option (Int × List Char)
    | 'Z' :: rest => some (0, rest)
    | 'z' :: rest => some (0, rest)
    | '+' :: rest => readClock rest
    | '-' :: rest => (readClock rest).map fun (n, rest) => (-n, rest)
    | '\u2212' :: rest => (readClock rest).map fun (n, rest) => (-n, rest)
    | _ => none
  readClock (cs : List Char) : Option (Int × List Char) := do
    let (hours, rest) ← readPair cs
    let (minutes, rest) ← readPair (rest.dropWhile fun c => c = ':' || Text.isBlank c)
    if minutes < 60 ∧ hours < 24 then pure ((hours * 60 + minutes : Nat), rest) else none
  readPair : List Char → Option (Nat × List Char)
    | a :: b :: rest =>
        if a.isDigit ∧ b.isDigit then some (Decimal.digitsValue [a, b], rest) else none
    | _ => none

/-- The years for which there are instants to be read. -/
def isKnownYear (year : Int) : Bool :=
  -262143 ≤ year && year ≤ 262142

/-- The instant of a text. Its year has to be a known one both on the clock of the text and in
universal time. -/
def readStamp? (text : String) : Option Instant := do
  let (year, rest) ← readYear text.toList
  let (month, rest) ← readPart 2 (← readMark '-' rest)
  let (day, rest) ← readPart 2 (← readMark '-' rest)
  let rest ← match rest with
    | 'T' :: rest => some rest
    | 't' :: rest => some rest
    | ' ' :: rest => some rest
    | _ => none
  let (hour, rest) ← readPart 2 rest
  let (minute, rest) ← readPart 2 (← readMark ':' rest)
  let (second, rest) ← readPart 2 (← readMark ':' rest)
  let (nano, rest) ← readPlaces rest
  let (ahead, rest) ← readOffset (Text.trimStart rest)
  if !Text.isBlankText rest ∨ !isKnownYear year ∨ 24 ≤ hour ∨ 60 ≤ minute then none
  else
    let (second, nano) := if second = 60 then (59, nano + 1000000000) else (second, nano)
    let t ← Instant.ofLocal? year month day hour minute second nano ahead
    if isKnownYear t.year then pure t else none

instance : ToData Instant := ⟨fun t => .text t.stamp⟩

instance : OfData Instant where
  ofData dialect v := do
    match readStamp? (← ofData dialect v) with
    | some t => pure t
    | none => .error (.expected "a time stamp")

end PokerCoach.Time
