import PokerCoach.Proofs.Decimal.Digits
import PokerCoach.Proofs.Json.Quote

/-!
# Printed numbers, words and texts are read back

A reader passes over the blanks before a value and stops where the value ends. A number ends only
with the character after it, so that not everything may follow one.
-/

namespace PokerCoach.Json

open Data

/-! ### Blanks -/

def IsGap (gap : List Char) : Prop :=
  ∀ c ∈ gap, isSpace c = true

@[simp]
theorem isGap_nil : IsGap [] := by
  intro c hc
  cases hc

theorem isGap_indent (depth : Nat) : IsGap (indent depth) := by
  intro c hc
  rcases List.mem_cons.mp hc with rfl | hc
  · rfl
  · rw [List.eq_of_mem_replicate hc]
    rfl

theorem skipSpace_append {gap : List Char} (hgap : IsGap gap) (cs : List Char) :
    skipSpace (gap ++ cs) = skipSpace cs :=
  List.dropWhile_append_of_pos hgap

theorem skipSpace_cons {c : Char} (hc : isSpace c = false) (cs : List Char) :
    skipSpace (c :: cs) = c :: cs :=
  List.dropWhile_cons_of_neg (by simp [hc])

theorem readValue_append {gap : List Char} (hgap : IsGap gap) (fuel : Nat) (cs : List Char) :
    readValue (fuel + 1) (gap ++ cs) = readValue (fuel + 1) cs := by
  rw [readValue, readValue, skipSpace_append hgap]

/-! ### What may follow -/

/-- A text with which no number goes on. -/
def EndsNumber (rest : List Char) : Prop :=
  ∀ c ∈ rest.head?, c.isDigit = false ∧ c ∉ ['.', 'e', 'E']

@[simp]
theorem endsNumber_nil : EndsNumber [] := by
  intro c hc
  cases hc

theorem EndsNumber.endsDigits {rest : List Char} (hends : EndsNumber rest) :
    Decimal.EndsDigits rest :=
  fun c hc => (hends c hc).1

theorem endsNumber_cons {c : Char} (hc : c ∈ [' ', '\t', '\n', '\r', ',', ']', '}'])
    (rest : List Char) : EndsNumber (c :: rest) := by
  intro d hd
  cases hd
  simp only [List.mem_cons, List.not_mem_nil, or_false] at hc
  rcases hc with rfl | rfl | rfl | rfl | rfl | rfl | rfl <;> exact ⟨rfl, by decide⟩

theorem mem_of_isSpace {c : Char} (hc : isSpace c = true) : c ∈ [' ', '\t', '\n', '\r'] := by
  simpa [isSpace, or_assoc] using hc

theorem endsNumber_append {gap : List Char} (hgap : IsGap gap) {rest : List Char}
    (hends : EndsNumber rest) : EndsNumber (gap ++ rest) := by
  cases gap with
  | nil => exact hends
  | cons c gap =>
      have hc := mem_of_isSpace (hgap c List.mem_cons_self)
      exact endsNumber_cons (List.mem_append_left [',', ']', '}'] hc) _

/-! ### Texts that are read -/

/-- A text that is read as a value, whatever it is followed by. It does not start with a blank, nor
like the end of a list. -/
structure Reads (text : List Char) (v : Value) : Prop where
  starts : ∃ c cs, text = c :: cs ∧ isSpace c = false ∧ c ≠ ']'
  reads (fuel : Nat) (rest : List Char) (hfuel : 2 * text.length + 1 ≤ fuel)
    (hends : EndsNumber rest) : readValue fuel (text ++ rest) = .ok (v, rest)

theorem Reads.of_cons {c : Char} {cs : List Char} {v : Value} (hspace : isSpace c = false)
    (hend : c ≠ ']')
    (hread : ∀ fuel rest, 2 * cs.length + 2 ≤ fuel → EndsNumber rest →
      readValue (fuel + 1) (c :: (cs ++ rest)) = .ok (v, rest)) :
    Reads (c :: cs) v := by
  refine ⟨⟨c, cs, rfl, hspace, hend⟩, fun fuel rest hfuel hends => ?_⟩
  rw [List.length_cons] at hfuel
  obtain ⟨fuel, rfl⟩ := Nat.exists_eq_add_of_le' (Nat.le_trans (Nat.le_add_left 1 _) hfuel)
  exact hread fuel rest (by omega) hends

theorem Reads.readValue_gap {text : List Char} {v : Value} (hreads : Reads text v)
    {gap : List Char} (hgap : IsGap gap) {fuel : Nat} (hfuel : 2 * text.length + 1 ≤ fuel)
    {rest : List Char} (hends : EndsNumber rest) :
    readValue fuel (gap ++ (text ++ rest)) = .ok (v, rest) := by
  obtain ⟨fuel, rfl⟩ := Nat.exists_eq_add_of_le' (Nat.le_trans (Nat.le_add_left 1 _) hfuel)
  rw [readValue_append hgap]
  exact hreads.reads _ rest hfuel hends

/-- A whole document. -/
theorem Reads.read {text : List Char} {v : Value} (hreads : Reads text v) :
    Json.read text = .ok v := by
  have hvalue := hreads.reads (2 * text.length + 1) [] (Nat.le_refl _) endsNumber_nil
  rw [List.append_nil] at hvalue
  rw [Json.read, hvalue]
  rfl

/-! ### Numbers -/

theorem readPlaces_of_endsNumber {rest : List Char} (hends : EndsNumber rest) :
    readPlaces rest = .ok (none, rest) := by
  cases rest with
  | nil => rfl
  | cons c rest =>
      have hpoint : c ≠ '.' := fun hc => (hends c rfl).2 (by simp [hc])
      simp [readPlaces, hpoint]

theorem readExponent_of_endsNumber {rest : List Char} (hends : EndsNumber rest) :
    readExponent rest = .ok (none, rest) := by
  cases rest with
  | nil => rfl
  | cons c rest =>
      have hlower : c ≠ 'e' := fun hc => (hends c rfl).2 (by simp [hc])
      have hupper : c ≠ 'E' := fun hc => (hends c rfl).2 (by simp [hc])
      simp [readExponent, hlower, hupper]

theorem readNumber_toDigits (negative : Bool) (n : Nat) {rest : List Char}
    (hends : EndsNumber rest) :
    readNumber negative (Nat.toDigits 10 n ++ rest) =
      .ok (numberValue negative (Nat.toDigits 10 n) none none, rest) := by
  have hdigits : readDigits (Nat.toDigits 10 n ++ rest) = .ok (Nat.toDigits 10 n, rest) := by
    rw [readDigits, Decimal.spanDigits_append_of_isDigit (fun _ => Decimal.isDigit_toDigits)
      hends.endsDigits]
    simp
  have hzero : ¬ ((Nat.toDigits 10 n).head? = some '0' ∧ (Nat.toDigits 10 n).length ≠ 1) :=
    fun h => h.2 (Decimal.length_eq_one_of_head?_toDigits h.1)
  rw [readNumber, hdigits]
  simp only [bind, Except.bind, if_neg hzero, readPlaces_of_endsNumber hends,
    readExponent_of_endsNumber hends]
  rfl

theorem isSpace_eq_false_of_isDigit {c : Char} (hc : c.isDigit = true) : isSpace c = false := by
  rw [Bool.eq_false_iff]
  intro hspace
  have hmem := mem_of_isSpace hspace
  simp only [List.mem_cons, List.not_mem_nil, or_false] at hmem
  rcases hmem with rfl | rfl | rfl | rfl <;> cases hc

/-- No text that starts with a digit starts like anything but a number. -/
theorem readValue_digit (fuel : Nat) {c : Char} (hc : c.isDigit = true) (cs : List Char) :
    readValue (fuel + 1) (c :: cs) = readNumber false (c :: cs) := by
  rw [readValue, skipSpace_cons (isSpace_eq_false_of_isDigit hc)]
  split
  all_goals
    next heq =>
      first
      | rfl
      | injection heq with hhead
        subst hhead
        exact absurd hc (by decide)

theorem readValue_minus (fuel : Nat) (cs : List Char) :
    readValue (fuel + 1) ('-' :: cs) = readNumber true cs := by
  rw [readValue, skipSpace_cons (by decide)]
  rfl

theorem numberValue_of_lt {n : Nat} (hlt : n < Nat.pow 2 64) :
    numberValue false (Nat.toDigits 10 n) none none = .integer n := by
  rw [numberValue, Decimal.digitsValue_toDigits]
  exact if_pos ⟨rfl, rfl, hlt⟩

theorem numberValue_neg {n : Nat} (hpos : 0 < n) (hle : n ≤ Nat.pow 2 63) :
    numberValue true (Nat.toDigits 10 n) none none = .integer (-n) := by
  rw [numberValue, Decimal.digitsValue_toDigits]
  exact if_pos ⟨rfl, rfl, hpos, hle⟩

theorem reads_toDigits {n : Nat} (hlt : n < Nat.pow 2 64) :
    Reads (Nat.toDigits 10 n) (.integer n) := by
  obtain ⟨c, cs, hdigits⟩ := List.exists_cons_of_ne_nil (Nat.toDigits_ne_nil (b := 10) (n := n))
  have hc : c.isDigit = true := Decimal.isDigit_toDigits (n := n) (by simp [hdigits])
  have hend : c ≠ ']' := by
    rintro rfl
    exact absurd hc (by decide)
  rw [hdigits]
  refine .of_cons (isSpace_eq_false_of_isDigit hc) hend fun fuel rest _ hends => ?_
  have hnumber := readNumber_toDigits false n hends
  rw [hdigits, List.cons_append] at hnumber
  rw [readValue_digit fuel hc, hnumber, ← hdigits, numberValue_of_lt hlt]

theorem reads_minus {n : Nat} (hpos : 0 < n) (hle : n ≤ Nat.pow 2 63) :
    Reads ('-' :: Nat.toDigits 10 n) (.integer (-n)) := by
  refine .of_cons (by decide) (by decide) fun fuel rest _ hends => ?_
  rw [readValue_minus, readNumber_toDigits true n hends, numberValue_neg hpos hle]

theorem reads_integer {n : Int} (hlow : -Nat.pow 2 63 ≤ n) (hhigh : n < Nat.pow 2 64) :
    Reads (toString n).toList (.integer n) := by
  cases n with
  | ofNat n =>
      rw [Decimal.toList_toString_ofNat]
      exact reads_toDigits (Int.ofNat_lt.mp hhigh)
  | negSucc n =>
      rw [Decimal.toList_toString_negSucc]
      exact reads_minus (Nat.succ_pos n) (Int.ofNat_le.mp (Int.neg_le_neg_iff.mp hlow))

/-! ### Words and texts -/

theorem reads_null : Reads ['n', 'u', 'l', 'l'] .null := by
  refine .of_cons (by decide) (by decide) fun fuel rest _ _ => ?_
  rw [readValue, skipSpace_cons (by decide)]
  rfl

theorem reads_bool (b : Bool) : Reads (line (.bool b)) (.bool b) := by
  cases b with
  | true =>
      refine .of_cons (by decide) (by decide) fun fuel rest _ _ => ?_
      rw [readValue, skipSpace_cons (by decide)]
      rfl
  | false =>
      refine .of_cons (by decide) (by decide) fun fuel rest _ _ => ?_
      rw [readValue, skipSpace_cons (by decide)]
      rfl

theorem quote_append (s : String) (rest : List Char) :
    quote s ++ rest = '"' :: (s.toList.flatMap escape ++ '"' :: rest) := by
  simp [quote]

theorem readValue_quote (fuel : Nat) (cs : List Char) :
    readValue (fuel + 1) ('"' :: cs) =
      (readText cs).map fun (s, rest) => (s.elim (.foreign .unreadable) .text, rest) := by
  rw [readValue, skipSpace_cons (by decide)]
  rfl

theorem reads_quote (s : String) : Reads (quote s) (.text s) := by
  rw [quote, List.cons_append]
  refine .of_cons (by decide) (by decide) fun fuel rest _ _ => ?_
  rw [List.append_assoc, List.singleton_append, readValue_quote, readText_flatMap_escape]
  rfl

theorem readName_of_readPieces {cs rest tail : List Char} {pieces : List Piece} {text : List Char}
    (hpieces : readPieces cs = .ok (pieces, rest)) (htext : joinPieces pieces = some text)
    (hcolon : skipSpace rest = ':' :: tail) :
    readName ('"' :: cs) = .ok (some ⟨String.ofList text, isPlain pieces⟩, tail) := by
  rw [readName, skipSpace_cons (by decide)]
  simp only [bind, Except.bind, hpieces, hcolon, htext]
  rfl

theorem readName_quote {gap : List Char} (hgap : IsGap gap) (s : String) (rest : List Char) :
    readName (gap ++ (quote s ++ ':' :: rest)) = .ok (some ⟨s, true⟩, rest) := by
  have hname := readName_of_readPieces (readPieces_flatMap_escape s.toList (':' :: rest))
    (joinPieces_map_pieceOf s.toList) (skipSpace_cons (by decide) rest)
  rw [isPlain_map_pieceOf, String.ofList_toList] at hname
  rw [readName, skipSpace_append hgap, ← readName, quote_append, hname]

end PokerCoach.Json
