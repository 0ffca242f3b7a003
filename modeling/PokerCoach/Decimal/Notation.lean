import PokerCoach.Decimal.Shortest

/-!
# Decimal notation

How a double is written with the digits of its shortest decimal, positionally or with an exponent
where that is shorter, and how it is written with a fixed number of places.
-/

namespace PokerCoach.Decimal

def zeros (n : Nat) : List Char :=
  List.replicate n '0'

/-- Places the decimal point before the digit number `whole`, filling up with zeros. -/
def pointAt (digits : List Char) (whole : Int) : List Char :=
  if whole ≤ 0 then '0' :: '.' :: zeros (-whole).toNat ++ digits
  else if whole.toNat < digits.length then
    digits.take whole.toNat ++ '.' :: digits.drop whole.toNat
  else digits ++ zeros (whole.toNat - digits.length)

def signed (negative : Bool) (s : List Char) : String :=
  String.ofList (if negative then '-' :: s else s)

/-- Positional notation at every size; a whole number has no point, and a double halfway between two
decimals is written as the larger one. -/
def plain (x : Float) : String :=
  match Binary.ofFloat x with
  | .notANumber => "NaN"
  | .infinite negative => signed negative ['i', 'n', 'f']
  | .finite negative mantissa exponent =>
      if mantissa = 0 then signed negative ['0']
      else
        let decimal := shortest .upper mantissa exponent
        let digits := Nat.toDigits 10 decimal.coefficient
        signed negative (pointAt digits (digits.length + decimal.exponent))

/-- Digits with the point after the first one and the exponent that goes with it. -/
def withExponent (digits : List Char) (whole : Int) : List Char :=
  let places := digits.drop 1
  digits.take 1 ++ (if places.isEmpty then [] else '.' :: places)
    ++ 'e' :: (toString (whole - 1)).toList

/-- Positional notation with at least one place after the point from `1e-5` up to below `1e16`, an
exponent outside. A double halfway between two decimals is written with the even last digit. -/
def compact (x : Float) : String :=
  match Binary.ofFloat x with
  | .notANumber => "NaN"
  | .infinite negative => signed negative ['i', 'n', 'f']
  | .finite negative mantissa exponent =>
      if mantissa = 0 then signed negative ['0', '.', '0']
      else
        let decimal := shortest .even mantissa exponent
        let digits := Nat.toDigits 10 decimal.coefficient
        let whole : Int := digits.length + decimal.exponent
        signed negative <|
          if whole ≤ -5 ∨ 16 < whole then withExponent digits whole
          else if (digits.length : Int) ≤ whole then pointAt digits whole ++ ['.', '0']
          else pointAt digits whole

/-! ### Fixed places

A double rounded to a given number of places; the exact binary value counts, and a half goes to the
even neighbour. -/

/-- The integer nearest to `num / den`, of two equally near ones the even one. -/
def roundHalfEven (num den : Nat) : Nat :=
  let quotient := num / den
  let twice := 2 * (num % den)
  if twice < den then quotient
  else if den < twice then quotient + 1
  else quotient + quotient % 2

/-- Writes `count` units of `10 ^ -places`. -/
def placesText (places count : Nat) : List Char :=
  let digits := Nat.toDigits 10 count
  let padded := zeros (places + 1 - digits.length) ++ digits
  if places = 0 then padded
  else padded.take (padded.length - places) ++ '.' :: padded.drop (padded.length - places)

def fixed (places : Nat) (x : Float) : String :=
  match Binary.ofFloat x with
  | .notANumber => "NaN"
  | .infinite negative => signed negative ['i', 'n', 'f']
  | .finite negative mantissa exponent =>
      signed negative <| placesText places <|
        roundHalfEven (mantissa * Nat.pow 10 places * Nat.pow 2 exponent.toNat)
          (Nat.pow 2 (-exponent).toNat)

end PokerCoach.Decimal
