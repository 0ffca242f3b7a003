/-!
# Texts

Blank characters, lines, the cells of a table, and hexadecimal digits.
-/

namespace PokerCoach.Text

/-! ### Blank characters -/

/-- The 25 characters of the Unicode property `White_Space`. -/
def isBlank (c : Char) : Bool :=
  let n := c.toNat
  (0x09 ≤ n && n ≤ 0x0D) || n == 0x20 || n == 0x85 || n == 0xA0 || n == 0x1680
    || (0x2000 ≤ n && n ≤ 0x200A) || n == 0x2028 || n == 0x2029 || n == 0x202F || n == 0x205F
    || n == 0x3000

/-- What is left of a text once the blanks before it are gone. -/
def trimStart (cs : List Char) : List Char :=
  cs.dropWhile isBlank

/-- A text of blanks only, the empty one included. -/
def isBlankText (cs : List Char) : Bool :=
  cs.all isBlank

theorem trimStart_eq_nil_iff {cs : List Char} : trimStart cs = [] ↔ isBlankText cs = true := by
  induction cs with
  | nil => simp [trimStart, isBlankText]
  | cons c cs ih =>
    simp only [trimStart, isBlankText, List.dropWhile_cons, List.all_cons] at ih ⊢
    split <;> simp_all

/-! ### Lines

A line ends at a line feed, together with one carriage return before it; the end of the text ends
the last line, which is none if it is empty. -/

/-- A line without the carriage return that its line feed took along. -/
def dropReturn (line : List Char) : List Char :=
  if line.getLast? = some '\r' then line.dropLast else line

/-- The lines of a text; `current` holds, reversed, the characters of the line being read. -/
def linesFrom (current : List Char) : List Char → List (List Char)
  | [] => if current.isEmpty then [] else [current.reverse]
  | '\n' :: rest => dropReturn current.reverse :: linesFrom [] rest
  | c :: rest => linesFrom (c :: current) rest

def lines (text : List Char) : List (List Char) :=
  linesFrom [] text

/-- The lines that are not blank, each with its 1-based number; blank lines count. -/
def numberedLines (text : List Char) : List (Nat × List Char) :=
  ((lines text).zipIdx 1).filterMap fun (line, number) =>
    if isBlankText line then none else some (number, line)

/-- Lines joined by line feeds, the last one ended as well. -/
def unlines (lines : List String) : String :=
  "\n".intercalate (lines ++ [""])

/-! ### Columns

Cells of a fixed least width, counted in characters. -/

/-- The cell filled with blanks on its right up to `width` characters. -/
def padRight (width : Nat) (s : String) : String :=
  s ++ String.ofList (List.replicate (width - s.length) ' ')

/-- The cell filled with blanks on its left up to `width` characters. -/
def padLeft (width : Nat) (s : String) : String :=
  String.ofList (List.replicate (width - s.length) ' ') ++ s

/-! ### Hexadecimal digits

Digits of base 16 with letters of either case, read and written at a fixed width. -/

def hexValue? (c : Char) : Option Nat :=
  if '0' ≤ c ∧ c ≤ '9' then some (c.toNat - '0'.toNat)
  else if 'a' ≤ c ∧ c ≤ 'f' then some (c.toNat - 'a'.toNat + 10)
  else if 'A' ≤ c ∧ c ≤ 'F' then some (c.toNat - 'A'.toNat + 10)
  else none

def hexDigit (n : Nat) : Char :=
  Char.ofNat (if n < 10 then '0'.toNat + n else 'a'.toNat + (n - 10))

def hexDigitUpper (n : Nat) : Char :=
  Char.ofNat (if n < 10 then '0'.toNat + n else 'A'.toNat + (n - 10))

/-- The last `width` digits of `n`, most significant first. -/
def hexDigits : Nat → Nat → List Char
  | 0, _ => []
  | width + 1, n => hexDigits width (n / 16) ++ [hexDigit (n % 16)]

/-- The number that digits denote, most significant first. -/
def ofHexDigits? (cs : List Char) : Option Nat :=
  cs.foldl (fun acc c => do pure (16 * (← acc) + (← hexValue? c))) (some 0)

theorem hexValue?_hexDigitUpper : ∀ n < 16, hexValue? (hexDigitUpper n) = some n := by decide

end PokerCoach.Text
