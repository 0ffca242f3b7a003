import PokerCoach.Json.Reader
import PokerCoach.Json.Printer

/-!
# Quoted texts are read back

Every text is read back from between its quotes. A control character without a letter of its own is
given by its number, and no other character is.
-/

namespace PokerCoach.Json

open Data

/-- What is read of a character that was written. -/
def pieceOf (c : Char) : Piece :=
  if c.toNat < 0x20 ∧ c ∉ ['\x08', '\x0c', '\n', '\r', '\t'] then .unit c.toNat else .char c

/-- A character is written with a letter, by its number, or as it is. -/
inductive Escapes (c : Char) : Prop where
  | letter (letter : Char) (hletter : letter ≠ 'u') (hvalue : escaped? letter = some c)
      (hescape : escape c = ['\\', letter]) (hpiece : pieceOf c = .char c)
  | number (hcontrol : c.toNat < 0x20)
      (hescape : escape c = '\\' :: 'u' :: Text.hexDigits 4 c.toNat)
      (hpiece : pieceOf c = .unit c.toNat)
  | plain (hquote : c ≠ '"') (hslash : c ≠ '\\') (hcontrol : ¬ c.toNat < 0x20)
      (hescape : escape c = [c]) (hpiece : pieceOf c = .char c)

theorem escapes (c : Char) : Escapes c := by
  by_cases hquote : c = '"'
  · subst hquote
    exact .letter '"' (by decide) rfl rfl rfl
  by_cases hslash : c = '\\'
  · subst hslash
    exact .letter '\\' (by decide) rfl rfl rfl
  by_cases hback : c = '\x08'
  · subst hback
    exact .letter 'b' (by decide) rfl rfl rfl
  by_cases hfeed : c = '\x0c'
  · subst hfeed
    exact .letter 'f' (by decide) rfl rfl rfl
  by_cases hline : c = '\n'
  · subst hline
    exact .letter 'n' (by decide) rfl rfl rfl
  by_cases hreturn : c = '\r'
  · subst hreturn
    exact .letter 'r' (by decide) rfl rfl rfl
  by_cases htab : c = '\t'
  · subst htab
    exact .letter 't' (by decide) rfl rfl rfl
  by_cases hcontrol : c.toNat < 0x20
  · exact .number hcontrol (by simp [escape, *]) (by simp [pieceOf, *])
  · exact .plain hquote hslash hcontrol (by simp [escape, *]) (by simp [pieceOf, *])

theorem ofHexDigits?_hexDigits :
    ∀ n < 0x20, Text.ofHexDigits? (Text.hexDigits 4 n) = some n := by
  decide +kernel

theorem readPieces_letter {letter c : Char} (hletter : letter ≠ 'u')
    (hvalue : escaped? letter = some c) (rest : List Char) :
    readPieces ('\\' :: letter :: rest) =
      (readPieces rest).map fun (pieces, rest) => (.char c :: pieces, rest) := by
  rw [readPieces]
  · rw [hvalue]
  · simp_all

theorem readPieces_number {n : Nat} (hn : n < 0x20) (rest : List Char) :
    readPieces ('\\' :: 'u' :: Text.hexDigits 4 n ++ rest) =
      (readPieces rest).map fun (pieces, rest) => (.unit n :: pieces, rest) := by
  have hvalue := ofHexDigits?_hexDigits n hn
  simp only [Text.hexDigits, List.nil_append, List.cons_append] at hvalue ⊢
  rw [readPieces, hvalue]

theorem readPieces_plain {c : Char} (hquote : c ≠ '"') (hslash : c ≠ '\\')
    (hcontrol : ¬ c.toNat < 0x20) (rest : List Char) :
    readPieces (c :: rest) =
      (readPieces rest).map fun (pieces, rest) => (.char c :: pieces, rest) := by
  rw [readPieces]
  · simp [hcontrol, hslash]
  all_goals simp_all

theorem readPieces_escape (c : Char) (rest : List Char) :
    readPieces (escape c ++ rest) =
      (readPieces rest).map fun (pieces, rest) => (pieceOf c :: pieces, rest) := by
  cases escapes c with
  | letter letter hletter hvalue hescape hpiece =>
      rw [hescape, hpiece]
      exact readPieces_letter hletter hvalue rest
  | number hcontrol hescape hpiece =>
      rw [hescape, hpiece]
      exact readPieces_number hcontrol rest
  | plain hquote hslash hcontrol hescape hpiece =>
      rw [hescape, hpiece]
      exact readPieces_plain hquote hslash hcontrol rest

theorem readPieces_flatMap_escape (cs rest : List Char) :
    readPieces (cs.flatMap escape ++ '"' :: rest) = .ok (cs.map pieceOf, rest) := by
  induction cs with
  | nil => rw [List.flatMap_nil, List.nil_append, readPieces, List.map_nil]
  | cons c cs ih =>
      rw [List.flatMap_cons, List.append_assoc, readPieces_escape, ih]
      rfl

/-- Where a unit is no half of a surrogate pair, it stands for a character of its own. -/
theorem joinPieces_unit {n : Nat} (hn : n < 0xD800) (rest : List Piece) :
    joinPieces (.unit n :: rest) = (joinPieces rest).map (Char.ofNat n :: ·) := by
  have hsingle : ¬ (0xD800 ≤ n ∧ n < 0xE000) := by omega
  have hhigh : ¬ (0xD800 ≤ n ∧ n < 0xDC00) := by omega
  have hlow : ¬ (0xDC00 ≤ n ∧ n < 0xE000) := by omega
  rcases rest with _ | ⟨_ | low, rest⟩ <;>
    simp only [joinPieces, hsingle, hhigh, hlow, if_false]

theorem joinPieces_pieceOf (c : Char) (rest : List Piece) :
    joinPieces (pieceOf c :: rest) = (joinPieces rest).map (c :: ·) := by
  unfold pieceOf
  split
  · next hcontrol => rw [joinPieces_unit (by omega), Char.ofNat_toNat]
  · rw [joinPieces]

theorem joinPieces_map_pieceOf (cs : List Char) : joinPieces (cs.map pieceOf) = some cs := by
  induction cs with
  | nil => rfl
  | cons c cs ih => rw [List.map_cons, joinPieces_pieceOf, ih, Option.map_some]

/-- No character is given by its number but one that has to be. -/
theorem isPlain_map_pieceOf (cs : List Char) : isPlain (cs.map pieceOf) = true := by
  rw [isPlain, List.all_map, List.all_eq_true]
  intro c _
  cases escapes c with
  | letter _ _ _ _ hpiece | plain _ _ _ _ hpiece => rw [Function.comp, hpiece]
  | number hcontrol _ hpiece =>
      rw [Function.comp, hpiece]
      exact decide_eq_true hcontrol

theorem readText_flatMap_escape (s : String) (rest : List Char) :
    readText (s.toList.flatMap escape ++ '"' :: rest) = .ok (some s, rest) := by
  rw [readText, readPieces_flatMap_escape]
  simp [Except.map, joinPieces_map_pieceOf]

end PokerCoach.Json
