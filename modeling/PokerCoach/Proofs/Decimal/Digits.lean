import PokerCoach.Decimal.Reader

/-!
# Digits that are written are read

The digits of a number, wherever a notation puts them: a reader finds their end at the first
character that is no digit, and their value is the number they were written for.
-/

namespace PokerCoach.Decimal

/-- A text that does not go on with a digit. -/
def EndsDigits (rest : List Char) : Prop :=
  ∀ c ∈ rest.head?, c.isDigit = false

theorem endsDigits_cons {c : Char} (hc : c.isDigit = false) (rest : List Char) :
    EndsDigits (c :: rest) := by
  intro d hd
  cases hd
  exact hc

theorem spanDigits_append_of_isDigit {digits rest : List Char}
    (hdigits : ∀ c ∈ digits, c.isDigit = true) (hends : EndsDigits rest) :
    spanDigits (digits ++ rest) = (digits, rest) := by
  induction digits with
  | nil =>
      cases rest with
      | nil => rfl
      | cons c rest => simp [spanDigits, hends c rfl]
  | cons c digits ih =>
      have htail := ih fun d hd => hdigits d (List.mem_cons_of_mem c hd)
      simp [spanDigits, hdigits c List.mem_cons_self, htail]

theorem digitsValue_eq_ofDigitChars (digits : List Char) :
    digitsValue digits = Nat.ofDigitChars 10 digits 0 := rfl

@[simp]
theorem digitsValue_toDigits (n : Nat) : digitsValue (Nat.toDigits 10 n) = n :=
  Nat.ofDigitChars_ten_toDigits

theorem isDigit_toDigits {n : Nat} {c : Char} (hc : c ∈ Nat.toDigits 10 n) : c.isDigit = true :=
  Nat.isDigit_of_mem_toDigits (by decide) (by decide) hc

theorem digitChar_ne_zero : ∀ n < 10, 0 < n → [Nat.digitChar n].head? ≠ some '0' := by decide

theorem head?_toDigits_ne_zero {n : Nat} (hpos : 0 < n) : (Nat.toDigits 10 n).head? ≠ some '0' := by
  induction n using Nat.strongRecOn with
  | _ n ih =>
      by_cases hlt : n < 10
      · rw [Nat.toDigits_of_lt_base hlt]
        exact digitChar_ne_zero n hlt hpos
      · have hhead := ih (n / 10) (by omega) (by omega)
        rw [Nat.toDigits_of_base_le (by decide) (by omega), List.head?_append]
        rw [List.head?_eq_some_head Nat.toDigits_ne_nil] at hhead ⊢
        exact hhead

/-- Only zero itself is written with a zero at the front. -/
theorem length_eq_one_of_head?_toDigits {n : Nat} (hzero : (Nat.toDigits 10 n).head? = some '0') :
    (Nat.toDigits 10 n).length = 1 := by
  rcases Nat.eq_zero_or_pos n with rfl | hpos
  · rfl
  · exact absurd hzero (head?_toDigits_ne_zero hpos)

/-! ### Whole numbers -/

theorem toList_toString_ofNat (n : Nat) :
    (toString (Int.ofNat n)).toList = Nat.toDigits 10 n := Nat.toList_repr

theorem toList_toString_negSucc (n : Nat) :
    (toString (Int.negSucc n)).toList = '-' :: Nat.toDigits 10 (n + 1) := by
  rw [← Nat.toList_repr]
  exact String.toList_append

end PokerCoach.Decimal
