/-!
# Reading numbers

Doubles nearest to a decimal, doubles that a few steps of floating point lead to, and the two
spellings of numbers that settings admit.
-/

namespace PokerCoach.Decimal

/-- The longest run of decimal digits at the front, and what follows it. -/
def spanDigits : List Char → List Char × List Char
  | [] => ([], [])
  | c :: rest =>
      if c.isDigit then ((c :: (spanDigits rest).1), (spanDigits rest).2) else ([], c :: rest)

def digitsValue (digits : List Char) : Nat :=
  digits.foldl (fun n c => 10 * n + (c.toNat - '0'.toNat)) 0

theorem spanDigits_append (cs : List Char) : (spanDigits cs).1 ++ (spanDigits cs).2 = cs := by
  induction cs with
  | nil => rfl
  | cons c cs ih =>
    rw [spanDigits]
    split
    · simp [ih]
    · rfl

theorem isDigit_of_mem_spanDigits {cs : List Char} {c : Char} (h : c ∈ (spanDigits cs).1) :
    c.isDigit = true := by
  induction cs with
  | nil => simp [spanDigits] at h
  | cons d cs ih =>
    rw [spanDigits] at h
    split at h
    · rcases List.mem_cons.1 h with rfl | h
      · assumption
      · exact ih h
    · simp at h

/-- The double nearest to `coefficient * 10 ^ exponent`; what is beyond all doubles, or nearer to
zero than any, is decided before a power of ten of that size is formed. -/
def nearest (coefficient : Nat) (exponent : Int) : Float :=
  let digits : Int := Nat.log2 coefficient * 30103 / 100000 + 1
  if coefficient = 0 ∨ exponent + digits < -400 then 0.0
  else if 400 < exponent then 1.0 / 0.0
  else if exponent < 0 then Float.ofScientific coefficient true exponent.natAbs
  else Float.ofScientific coefficient false exponent.natAbs

/-- The sign at the front, a minus being `true`, and what follows it. -/
def spanSign : List Char → Bool × List Char
  | '-' :: rest => (true, rest)
  | '+' :: rest => (false, rest)
  | rest => (false, rest)

def negateIf (negative : Bool) (x : Float) : Float :=
  if negative then -x else x

/-- The exponent of a number, which needs a digit; no exponent is zero. -/
def exponent? : List Char → Option Int
  | [] => some 0
  | c :: rest =>
      if c = 'e' ∨ c = 'E' then
        let (negative, digits) := spanSign rest
        if digits.isEmpty ∨ !digits.all Char.isDigit then none
        else some (if negative then -(digitsValue digits : Int) else digitsValue digits)
      else none

/-- An unsigned number, with a point or an exponent or neither; digits on one side of the point
suffice. -/
def magnitude? (text : List Char) : Option Float := do
  let (whole, rest) := spanDigits text
  let (places, rest) :=
    match rest with
    | '.' :: rest => spanDigits rest
    | rest => ([], rest)
  if whole.isEmpty ∧ places.isEmpty then none
  else
    let exponent ← exponent? rest
    pure (nearest (digitsValue (whole ++ places)) (exponent - places.length))

/-- A number setting: an optional sign, then a number, `inf`, `infinity` or `nan` in any case. -/
def readFloat? (text : String) : Option Float :=
  let (negative, rest) := spanSign text.toList
  let word := String.ofList (rest.map Char.toLower)
  if word = "inf" ∨ word = "infinity" then some (negateIf negative (1.0 / 0.0))
  else if word = "nan" then some (negateIf negative (0.0 / 0.0))
  else (magnitude? rest).map (negateIf negative)

/-- A count setting: an optional plus sign and digits, at most `2 ^ 32 - 1`. -/
def readCount? (text : String) : Option UInt32 :=
  let digits :=
    match text.toList with
    | '+' :: rest => rest
    | digits => digits
  if digits.isEmpty ∨ !digits.all Char.isDigit then none
  else if digitsValue digits < UInt32.size then some (UInt32.ofNat (digitsValue digits))
  else none

/-! ### Stepwise doubles

A double for a decimal in a few steps of floating point: its first digits as one word of 64 bits,
then a power of ten. Each step rounds, so that of a decimal with many digits or a large exponent the
result may be a neighbour of the nearest double. -/

/-- Digits that were taken into one word, and the power of ten that goes with it. -/
structure Leading where
  word : Nat := 0
  exponent : Int := 0
  deriving DecidableEq, Repr

namespace Leading

/-- The number of words of 64 bits. -/
def wordCount : Nat := UInt64.size

def next (lead : Leading) (c : Char) : Nat :=
  10 * lead.word + (c.toNat - '0'.toNat)

/-- Takes digits before the point. From the first one on that has no room, each counts as a zero. -/
def whole (lead : Leading) : List Char → Leading
  | [] => lead
  | c :: rest =>
      if lead.next c < wordCount then whole { lead with word := lead.next c } rest
      else { lead with exponent := lead.exponent + (c :: rest).length }

/-- Takes digits after the point up to the first one that has no room. -/
def places (lead : Leading) : List Char → Leading
  | [] => lead
  | c :: rest =>
      if lead.next c < wordCount then
        places { word := lead.next c, exponent := lead.exponent - 1 } rest
      else lead

def power (n : Nat) : Float :=
  nearest 1 n

/-- The largest power of ten that is a double has the exponent 308. A word that has been divided by
it twice is zero. -/
def scaled (lead : Leading) : Option Float :=
  let x := nearest lead.word 0
  if lead.word = 0 then some 0.0
  else if 308 < lead.exponent then none
  else if 0 ≤ lead.exponent then
    let x := x * power lead.exponent.toNat
    if x.isFinite then some x else none
  else if -308 ≤ lead.exponent then some (x / power (-lead.exponent).toNat)
  else if -616 ≤ lead.exponent then some (x / power 308 / power (-lead.exponent - 308).toNat)
  else some 0.0

end Leading

/-- The double for whole digits, places and an exponent; none if it is beyond all doubles. -/
def stepwise (whole places : List Char) (exponent : Int) : Option Float :=
  let lead := (Leading.whole {} whole).places places
  Leading.scaled { lead with exponent := lead.exponent + exponent }

end PokerCoach.Decimal
