import PokerCoach.Data.Value
import PokerCoach.Decimal.Reader
import PokerCoach.Text.Basic
import PokerCoach.Time.Instant

/-!
# TOML scalars

Truth values, numbers, dates and times, each recognised from the whole word that it is written as.
-/

namespace PokerCoach.Toml

open Data

/-- The digits of a number in some base, where single underscores may stand between two of them. -/
def readDigits (isDigit : Char → Bool) (cs : List Char) : Option (List Char) :=
  let rec go (before : Bool) : List Char → Option (List Char)
    | [] => if before then some [] else none
    | '_' :: c :: rest =>
        if before && isDigit c then (go true rest).map (c :: ·) else none
    | c :: rest => if isDigit c then (go true rest).map (c :: ·) else none
  go false cs

def inBase (base : Nat) (c : Char) : Bool :=
  (Text.hexValue? c).any (· < base)

def valueIn (base : Nat) (digits : List Char) : Nat :=
  digits.foldl (fun n c => base * n + (Text.hexValue? c).getD 0) 0

/-- Decimal digits without a zero before others. -/
def readDecimal (cs : List Char) : Option (List Char) := do
  let digits ← readDigits Char.isDigit cs
  if digits.head? = some '0' ∧ digits.length ≠ 1 then none else pure digits

/-- A whole number of 64 bits, with or without sign. One of up to 128 bits can be written as well,
but is never used; a larger one is broken. -/
def integer (n : Int) : Value :=
  if -Nat.pow 2 63 ≤ n ∧ n < Nat.pow 2 64 then .integer n
  else if -Nat.pow 2 127 ≤ n ∧ n < Nat.pow 2 128 then .foreign .unreadable
  else .foreign .broken

/-- A number in some base after the mark of the base; the mark alone is a broken number. -/
def readInBase (base : Nat) (cs : List Char) : Option Value :=
  if cs.isEmpty then some (.foreign .broken)
  else do pure (integer (valueIn base (← readDigits (inBase base) cs)))

def readInteger (word : List Char) : Option Value :=
  match word with
  | '0' :: 'x' :: rest => readInBase 16 rest
  | '0' :: 'o' :: rest => readInBase 8 rest
  | '0' :: 'b' :: rest => readInBase 2 rest
  | _ => do
      let (negative, rest) := Decimal.spanSign word
      let n : Int := Decimal.digitsValue (← readDecimal rest)
      pure (integer (if negative then -n else n))

/-- The word up to the first character that `stop` picks, and the rest from there on. -/
def cut (stop : Char → Bool) (word : List Char) : List Char × List Char :=
  (word.takeWhile (!stop ·), word.dropWhile (!stop ·))

/-- A number with a point or an exponent; beyond the range of doubles it is broken. -/
def readDouble (word : List Char) : Option Value := do
  let (negative, rest) := Decimal.spanSign word
  if rest = ['i', 'n', 'f'] then pure (.decimal (Decimal.negateIf negative (1.0 / 0.0)))
  else if rest = ['n', 'a', 'n'] then pure (.decimal (Decimal.negateIf negative (0.0 / 0.0)))
  else
    let (mantissa, power) := cut (fun c => c = 'e' || c = 'E') rest
    let (whole, places) := cut (· = '.') mantissa
    if places.isEmpty ∧ power.isEmpty then none
    let whole ← readDecimal whole
    let places ← match places with
      | '.' :: places => readDigits Char.isDigit places
      | _ => some []
    let power : Int ← match power with
      | _ :: power => do
          let (down, digits) := Decimal.spanSign power
          let n : Int := Decimal.digitsValue (← readDigits Char.isDigit digits)
          pure (if down then -n else n)
      | [] => some 0
    let x := Decimal.nearest (Decimal.digitsValue (whole ++ places)) (power - places.length)
    pure (if x.isFinite then .decimal (Decimal.negateIf negative x) else .foreign .broken)

/-- A number of exactly `width` digits, and what follows it. -/
def takeNumber (width : Nat) (cs : List Char) : Option (Nat × List Char) :=
  let digits := cs.take width
  if digits.length = width ∧ digits.all Char.isDigit then
    some (Decimal.digitsValue digits, cs.drop width)
  else none

def takeChar (c : Char) : List Char → Option (List Char)
  | d :: rest => if d = c then some rest else none
  | [] => none

/-- A date, and what follows it. -/
def takeDate (cs : List Char) : Option (List Char) := do
  let (year, rest) ← takeNumber 4 cs
  let (month, rest) ← takeNumber 2 (← takeChar '-' rest)
  let (day, rest) ← takeNumber 2 (← takeChar '-' rest)
  if Time.isDate year month day then pure rest else none

/-- Hours and minutes. -/
def takeMinutes (cs : List Char) : Option (List Char) := do
  let (hour, rest) ← takeNumber 2 cs
  let (minute, rest) ← takeNumber 2 (← takeChar ':' rest)
  if hour < 24 ∧ minute < 60 then pure rest else none

/-- A time of day, with or without seconds and their places. -/
def takeTime (cs : List Char) : Option (List Char) := do
  let rest ← takeMinutes cs
  match rest with
  | ':' :: rest =>
      let (second, rest) ← takeNumber 2 rest
      if 60 < second then none
      else
        match rest with
        | '.' :: rest =>
            let (digits, rest) := Decimal.spanDigits rest
            if digits.isEmpty then none else pure rest
        | rest => pure rest
  | rest => pure rest

def isOffset : List Char → Bool
  | [] => true
  | ['Z'] => true
  | ['z'] => true
  | '+' :: rest => takeMinutes rest == some []
  | '-' :: rest => takeMinutes rest == some []
  | _ => false

/-- A date, a time, or both with or without an offset. -/
def isMoment (word : List Char) : Bool :=
  match takeDate word with
  | some [] => true
  | some (c :: rest) =>
      (c = 'T' || c = 't' || c = ' ') && (takeTime rest).any isOffset
  | none => takeTime word == some []

def scalar? (word : List Char) : Option Value :=
  if word = ['t', 'r', 'u', 'e'] then some (.bool true)
  else if word = ['f', 'a', 'l', 's', 'e'] then some (.bool false)
  else
    match readInteger word with
    | some v => some v
    | none =>
        match readDouble word with
        | some v => some v
        | none => if isMoment word then some (.foreign .moment) else none

/-- The characters of which words are made. -/
def isWordChar (c : Char) : Bool :=
  c.isAlphanum || c = '_' || c = '+' || c = '-' || c = '.' || c = ':'

/-- A word, and what follows it; a blank joins a date to the time after it. -/
def spanWord (cs : List Char) : List Char × List Char :=
  let word := cs.takeWhile isWordChar
  let rest := cs.dropWhile isWordChar
  match rest with
  | ' ' :: c :: _ =>
      if c.isDigit ∧ takeDate word = some [] then
        (word ++ ' ' :: (rest.drop 1).takeWhile isWordChar, (rest.drop 1).dropWhile isWordChar)
      else (word, rest)
  | _ => (word, rest)

end PokerCoach.Toml
