/-!
# Shortest decimals

Of all decimals that a double is the nearest double of, the one with the fewest digits, and of
those the one nearest to the double. Where the double is halfway between two of them, it is for the
caller to say which one counts.
-/

namespace PokerCoach.Decimal

/-! ### Binary fractions

A double as what it denotes: a sign and `mantissa * 2 ^ exponent`, or no number at all. -/

inductive Binary where
  | notANumber
  | infinite (negative : Bool)
  | finite (negative : Bool) (mantissa : Nat) (exponent : Int)
  deriving DecidableEq, Repr

/-- Bits 0 to 51 hold the fraction, 52 to 62 the biased exponent, 63 the sign. -/
def Binary.ofBits (bits : Nat) : Binary :=
  let negative := bits / Nat.pow 2 63 % 2 == 1
  let biased : Nat := bits / Nat.pow 2 52 % Nat.pow 2 11
  let fraction := bits % Nat.pow 2 52
  if biased = 2047 then
    if fraction = 0 then .infinite negative else .notANumber
  else if biased = 0 then .finite negative fraction (-1074)
  else .finite negative (Nat.pow 2 52 + fraction) ((biased : Int) - 1075)

def Binary.ofFloat (x : Float) : Binary :=
  .ofBits x.toBits.toNat

/-! ### The search -/

structure Digits where
  coefficient : Nat
  exponent : Int
  deriving DecidableEq, Repr

/-- Which of two decimals stands for a double halfway between them. -/
inductive Tie where
  | upper
  | even
  deriving DecidableEq, Repr

/-- The one of two neighbours that wins, of which `floor` is the lower one. -/
def Tie.pick : Tie → Nat → Nat
  | .upper, floor => floor + 1
  | .even, floor => floor + floor % 2

/-- The reals between `low` and `high` round to `value`; all three are scaled to integers, and
`step` is the distance of two neighbouring decimals on the same scale. -/
structure Grid where
  low : Nat
  value : Nat
  high : Nat
  closed : Bool
  step : Nat

/-- The interval around `mantissa * 2 ^ exponent` on the decimals that end at `10 ^ place`. Below a
power of two the neighbours are twice as dense as above it, except among the smallest doubles. -/
def Grid.around (mantissa : Nat) (exponent place : Int) : Grid :=
  let scale := Nat.pow 2 (exponent - 2).toNat * Nat.pow 10 (-place).toNat
  let below := if mantissa = Nat.pow 2 52 ∧ -1074 < exponent then 1 else 2
  { low := (4 * mantissa - below) * scale
    value := 4 * mantissa * scale
    high := (4 * mantissa + 2) * scale
    closed := mantissa % 2 = 0
    step := Nat.pow 2 (2 - exponent).toNat * Nat.pow 10 place.toNat }

def Grid.holds (grid : Grid) (coefficient : Nat) : Bool :=
  let point := coefficient * grid.step
  if grid.closed then grid.low ≤ point && point ≤ grid.high
  else grid.low < point && point < grid.high

/-- Of the two decimals next to the value the nearer one that lies in the interval. -/
def Grid.hit? (grid : Grid) (tie : Tie) : Option Nat :=
  let floor := grid.value / grid.step
  match grid.holds floor, grid.holds (floor + 1) with
  | true, true =>
      let below := grid.value - floor * grid.step
      let above := (floor + 1) * grid.step - grid.value
      if below < above then some floor
      else if above < below then some (floor + 1)
      else some (tie.pick floor)
  | true, false => some floor
  | false, true => some (floor + 1)
  | false, false => none

/-- Tries ever finer grids, from `place` downwards. -/
def search (tie : Tie) (mantissa : Nat) (exponent : Int) : Nat → Int → Digits
  | 0, place => ⟨mantissa, place⟩
  | tries + 1, place =>
      match (Grid.around mantissa exponent place).hit? tie with
      | some coefficient => ⟨coefficient, place⟩
      | none => search tie mantissa exponent tries (place - 1)

/-- The shortest decimal of the nonzero `mantissa * 2 ^ exponent`. The search starts at or above the
leading digit, and 17 digits always suffice. -/
def shortest (tie : Tie) (mantissa : Nat) (exponent : Int) : Digits :=
  if mantissa = 0 then ⟨0, 0⟩
  else
    let magnitude := exponent + Nat.log2 mantissa + 1
    search tie mantissa exponent 22 (magnitude * 30103 / 100000 + 1)

end PokerCoach.Decimal
