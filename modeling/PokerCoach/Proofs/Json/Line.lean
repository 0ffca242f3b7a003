import PokerCoach.Proofs.Json.Tree

/-!
# What is printed on one line stays on it

Control characters are escaped in texts, and nothing else that is printed on one line is one, so
that no line feed stands within it. In the digits of a number there are no blanks either.
-/

namespace PokerCoach

/-- A text without characters below a bound. -/
def Text.IsFrom (bound : Nat) (cs : List Char) : Prop :=
  ∀ c ∈ cs, bound ≤ c.toNat

instance (bound : Nat) (cs : List Char) : Decidable (Text.IsFrom bound cs) :=
  List.decidableBAll (bound ≤ Char.toNat ·) cs

namespace Text

variable {bound : Nat} {c : Char} {cs more : List Char}

@[simp]
theorem isFrom_nil : IsFrom bound [] := fun _ hc => absurd hc List.not_mem_nil

@[simp]
theorem isFrom_cons : IsFrom bound (c :: cs) ↔ bound ≤ c.toNat ∧ IsFrom bound cs :=
  List.forall_mem_cons

@[simp]
theorem isFrom_append : IsFrom bound (cs ++ more) ↔ IsFrom bound cs ∧ IsFrom bound more :=
  List.forall_mem_append

theorem IsFrom.mono {lower : Nat} (hfrom : IsFrom bound cs) (hle : lower ≤ bound) :
    IsFrom lower cs :=
  fun c hc => Nat.le_trans hle (hfrom c hc)

theorem IsFrom.of_subset (hfrom : IsFrom bound cs) (hsubset : more ⊆ cs) : IsFrom bound more :=
  fun c hc => hfrom c (hsubset hc)

theorem isFrom_intercalate {sep : List Char} {texts : List (List Char)} (hsep : IsFrom bound sep)
    (htexts : ∀ text ∈ texts, IsFrom bound text) : IsFrom bound (List.intercalate sep texts) := by
  induction texts with
  | nil => simp
  | cons text texts ih =>
      obtain ⟨hfirst, hrest⟩ := List.forall_mem_cons.mp htexts
      cases texts with
      | nil => simpa using hfirst
      | cons next texts =>
          rw [List.intercalate_cons_cons]
          simpa [hfirst, hsep] using ih hrest

theorem not_mem_of_isFrom (hfrom : IsFrom bound cs) (hlt : c.toNat < bound) : c ∉ cs :=
  fun hc => absurd (hfrom c hc) (Nat.not_le_of_lt hlt)

end Text

open Text

/-! ### Numbers -/

namespace Decimal

theorem isFrom_of_isDigit {digits : List Char} (hdigits : ∀ c ∈ digits, c.isDigit = true) :
    IsFrom 0x21 digits := by
  intro c hc
  have hdigit := hdigits c hc
  simp only [Char.isDigit, Bool.and_eq_true, decide_eq_true_eq] at hdigit
  have hlow : 48 ≤ c.toNat := hdigit.1
  omega

theorem isFrom_toDigits (n : Nat) : IsFrom 0x21 (Nat.toDigits 10 n) :=
  isFrom_of_isDigit fun _ => isDigit_toDigits

theorem isFrom_toString (n : Int) : IsFrom 0x21 (toString n).toList := by
  cases n with
  | ofNat n =>
      rw [toList_toString_ofNat]
      exact isFrom_toDigits n
  | negSucc n =>
      rw [toList_toString_negSucc, isFrom_cons]
      exact ⟨by decide, isFrom_toDigits (n + 1)⟩

theorem isFrom_zeros (n : Nat) : IsFrom 0x21 (zeros n) := by
  intro c hc
  rw [List.eq_of_mem_replicate hc]
  decide

theorem isFrom_pointAt {digits : List Char} (hdigits : IsFrom 0x21 digits) (whole : Int) :
    IsFrom 0x21 (pointAt digits whole) := by
  have htake := hdigits.of_subset (List.take_subset whole.toNat digits)
  have hdrop := hdigits.of_subset (List.drop_subset whole.toNat digits)
  unfold pointAt
  split
  · simp [hdigits, isFrom_zeros]
  · split
    · simp [htake, hdrop]
    · simp [hdigits, isFrom_zeros]

theorem isFrom_withExponent {digits : List Char} (hdigits : IsFrom 0x21 digits) (whole : Int) :
    IsFrom 0x21 (withExponent digits whole) := by
  have htake := hdigits.of_subset (List.take_subset 1 digits)
  have hdrop := hdigits.of_subset (List.drop_subset 1 digits)
  have hexponent : IsFrom 0x21 ('e' :: (toString (whole - 1)).toList) :=
    isFrom_cons.mpr ⟨by decide, isFrom_toString _⟩
  unfold withExponent
  dsimp only
  split
  · rw [List.append_nil]
    exact isFrom_append.mpr ⟨htake, hexponent⟩
  · have hplaces := isFrom_cons.mpr ⟨show 0x21 ≤ '.'.toNat by decide, hdrop⟩
    exact isFrom_append.mpr ⟨isFrom_append.mpr ⟨htake, hplaces⟩, hexponent⟩

theorem isFrom_signed (negative : Bool) {cs : List Char} (hcs : IsFrom 0x21 cs) :
    IsFrom 0x21 (signed negative cs).toList := by
  cases negative <;> simp [signed, hcs]

theorem isFrom_compact (x : Float) : IsFrom 0x21 (compact x).toList := by
  unfold compact
  split
  · decide
  · exact isFrom_signed _ (by decide)
  · split
    · exact isFrom_signed _ (by decide)
    · have hdigits := isFrom_toDigits
      refine isFrom_signed _ ?_
      split
      · exact isFrom_withExponent (hdigits _) _
      · split
        · simp [isFrom_pointAt (hdigits _)]
        · exact isFrom_pointAt (hdigits _) _

end Decimal

namespace Json

open Data

theorem isFrom_decimalText (x : Float) : IsFrom 0x21 (decimalText x) := by
  unfold decimalText
  split
  · exact Decimal.isFrom_compact x
  · decide

/-! ### Trees -/

theorem le_of_escaped? {letter c : Char} (hvalue : escaped? letter = some c) :
    0x20 ≤ letter.toNat := by
  unfold escaped? at hvalue
  split at hvalue
  all_goals first | decide | cases hvalue

theorem isFrom_hexDigits : ∀ n < 0x20, IsFrom 0x20 (hexDigits 4 n) := by decide

theorem isFrom_escape (c : Char) : IsFrom 0x20 (escape c) := by
  cases escapes c with
  | letter letter _ hvalue hescape _ => simp [hescape, le_of_escaped? hvalue]
  | number hcontrol hescape _ => simp [hescape, isFrom_hexDigits _ hcontrol]
  | plain _ _ hcontrol hescape _ => simpa [hescape] using hcontrol

theorem isFrom_quote (s : String) : IsFrom 0x20 (quote s) := by
  have hescaped : IsFrom 0x20 (s.toList.flatMap escape) := by
    intro c hc
    obtain ⟨d, -, hmem⟩ := List.mem_flatMap.mp hc
    exact isFrom_escape d c hmem
  simp [quote, hescaped]

theorem isFrom_bracket {opening closing : Char} {texts : List (List Char)}
    (hopening : 0x20 ≤ opening.toNat) (hclosing : 0x20 ≤ closing.toNat)
    (htexts : ∀ text ∈ texts, IsFrom 0x20 text) : IsFrom 0x20 (bracket opening closing texts) := by
  have hcomma : IsFrom 0x20 [','] := by decide
  simp [bracket, hopening, hclosing, isFrom_intercalate hcomma htexts]

theorem isFrom_line {v : Value} (hlegible : Legible v) : IsFrom 0x20 (line v) := by
  induction hlegible with
  | null => rw [line]; decide
  | bool b => cases b <;> rw [line] <;> decide
  | integer n => rw [line]; exact (Decimal.isFrom_toString n).mono (by decide)
  | decimal x => rw [line]; exact (isFrom_decimalText x).mono (by decide)
  | text s => rw [line]; exact isFrom_quote s
  | list items _ ih =>
      rw [line, lineItems_eq_map]
      exact isFrom_bracket (by decide) (by decide) (List.forall_mem_map.mpr ih)
  | record fields _ _ ih =>
      rw [line, lineFields_eq_map]
      refine isFrom_bracket (by decide) (by decide) (List.forall_mem_map.mpr fun field hfield => ?_)
      simp [fieldText, isFrom_quote, ih field hfield]

end Json

end PokerCoach
