import PokerCoach.Store.Directory

/-!
# File names tell players apart

The file name of a player can be read back byte by byte, so that no two players share a file. A
temporary file starts with a point, which no record's file does, and a listing of records tells one
from the other.
-/

namespace PokerCoach

/-! ### Bytes of a text -/

theorem toList_loop (bytes : ByteArray) (i : Nat) (seen : List UInt8) :
    ByteArray.toList.loop bytes i seen = seen.reverse ++ bytes.data.toList.drop i := by
  fun_induction ByteArray.toList.loop bytes i seen with
  | case1 i seen hlt ih =>
      have hget : bytes.get! i = bytes.data.toList[i] := by
        simp [ByteArray.get!, getElem!_pos bytes.data i hlt]
      rw [ih, List.drop_eq_getElem_cons hlt, List.reverse_cons, List.append_assoc, hget]
      rfl
  | case2 i seen hge =>
      rw [List.drop_eq_nil_of_le (by simpa using hge), List.append_nil]

theorem toList_toUTF8_injective : Function.Injective fun text : String => text.toUTF8.toList := by
  intro first second hsame
  have hdata (text : String) : text.toUTF8.toList = text.toUTF8.data.toList := toList_loop _ 0 []
  have hlists : first.toUTF8.data.toList = second.toUTF8.data.toList := by
    rw [← hdata, ← hdata]
    exact hsame
  exact String.toByteArray_inj.mp (ByteArray.ext (Array.toList_inj.mp hlists))

namespace FileName

/-! ### Bytes in a file name -/

theorem hexDigitUpper_injective {m n : Nat} (hm : m < 16) (hn : n < 16)
    (hsame : Text.hexDigitUpper m = Text.hexDigitUpper n) : m = n := by
  have hvalue := congrArg Text.hexValue? hsame
  rwa [Text.hexValue?_hexDigitUpper m hm, Text.hexValue?_hexDigitUpper n hn,
    Option.some_inj] at hvalue

theorem toNat_ofNat_byte (byte : UInt8) : (Char.ofNat byte.toNat).toNat = byte.toNat := by
  have hvalid : byte.toNat.isValidChar := .inl (by have := byte.toNat_lt; omega)
  rw [Char.ofNat, dif_pos hvalid]
  rfl

theorem ofNat_byte_injective {first second : UInt8}
    (hsame : Char.ofNat first.toNat = Char.ofNat second.toNat) : first = second := by
  have hnat := congrArg Char.toNat hsame
  rwa [toNat_ofNat_byte, toNat_ofNat_byte, UInt8.toNat_inj] at hnat

/-- The percent sign always stands for itself, or starts an escape. -/
theorem ofNat_ne_percent {byte : UInt8} (hplain : isPlain byte) :
    Char.ofNat byte.toNat ≠ '%' := by
  intro hsame
  have hbyte : byte = 37 := ofNat_byte_injective hsame
  subst hbyte
  exact absurd hplain (by decide)

theorem ofNat_ne_point {byte : UInt8} (hplain : isPlain byte) :
    Char.ofNat byte.toNat ≠ '.' := by
  intro hsame
  have hbyte : byte = 46 := ofNat_byte_injective hsame
  subst hbyte
  exact absurd hplain (by decide)

theorem encodeByte_append_inj {first second : UInt8} {left right : List Char}
    (hsame : encodeByte first ++ left = encodeByte second ++ right) :
    first = second ∧ left = right := by
  unfold encodeByte at hsame
  by_cases hfirst : isPlain first = true <;> by_cases hsecond : isPlain second = true
  · rw [if_pos hfirst, if_pos hsecond] at hsame
    obtain ⟨hchar, htail⟩ := List.cons.inj hsame
    exact ⟨ofNat_byte_injective hchar, htail⟩
  · rw [if_pos hfirst, if_neg hsecond] at hsame
    exact absurd (List.cons.inj hsame).1 (ofNat_ne_percent hfirst)
  · rw [if_neg hfirst, if_pos hsecond] at hsame
    exact absurd (List.cons.inj hsame).1.symm (ofNat_ne_percent hsecond)
  · rw [if_neg hfirst, if_neg hsecond] at hsame
    simp only [List.cons_append, List.nil_append, List.cons.injEq, true_and] at hsame
    obtain ⟨hhigh, hlow, htail⟩ := hsame
    have hlt (byte : UInt8) : byte.toNat < 256 := byte.toNat_lt
    have hdiv := hexDigitUpper_injective (by have := hlt first; omega)
      (by have := hlt second; omega) hhigh
    have hmod := hexDigitUpper_injective (Nat.mod_lt _ (by omega)) (Nat.mod_lt _ (by omega)) hlow
    exact ⟨UInt8.toNat_inj.mp (by omega), htail⟩

theorem encodeByte_ne_nil (byte : UInt8) : encodeByte byte ≠ [] := by
  unfold encodeByte
  split <;> exact List.cons_ne_nil _ _

theorem head_encodeByte_ne_point (byte : UInt8) (rest : List Char) :
    (encodeByte byte ++ rest).head? ≠ some '.' := by
  unfold encodeByte
  split
  · next hplain => simpa using ofNat_ne_point hplain
  · simp

theorem flatMap_encodeByte_injective :
    Function.Injective fun bytes : List UInt8 => bytes.flatMap encodeByte := by
  intro first second hsame
  dsimp only at hsame
  induction first generalizing second with
  | nil =>
      cases second with
      | nil => rfl
      | cons byte rest => simp [encodeByte_ne_nil] at hsame
  | cons byte rest ih =>
      cases second with
      | nil => simp [encodeByte_ne_nil] at hsame
      | cons other others =>
          rw [List.flatMap_cons, List.flatMap_cons] at hsame
          obtain ⟨rfl, htail⟩ := encodeByte_append_inj hsame
          rw [ih htail]

/-- An escape goes on after its percent sign, so that a lone one is no name's encoding. -/
theorem flatMap_encodeByte_ne_percent (bytes : List UInt8) :
    bytes.flatMap encodeByte ≠ ['%'] := by
  cases bytes with
  | nil => simp
  | cons byte rest =>
      rw [List.flatMap_cons]
      unfold encodeByte
      split
      · next hplain =>
          intro hsame
          exact ofNat_ne_percent hplain (List.cons.inj hsame).1
      · simp

/-! ### Names of files -/

theorem stem_eq (player : String) :
    stem player =
      if player.toUTF8.toList.flatMap encodeByte = [] then ['%']
      else player.toUTF8.toList.flatMap encodeByte := by
  unfold stem
  split
  · next hnil => rw [if_pos hnil]
  · next hne => rw [if_neg fun hnil => hne hnil]

theorem stem_injective : Function.Injective stem := by
  intro first second hsame
  refine toList_toUTF8_injective (flatMap_encodeByte_injective ?_)
  rw [stem_eq, stem_eq] at hsame
  split at hsame <;> split at hsame
  · next hfirst hsecond => exact hfirst.trans hsecond.symm
  · exact absurd hsame.symm (flatMap_encodeByte_ne_percent _)
  · exact absurd hsame (flatMap_encodeByte_ne_percent _)
  · exact hsame

theorem head_stem_ne_point (player : String) (rest : List Char) :
    (stem player ++ rest).head? ≠ some '.' := by
  rw [stem_eq]
  split
  · simp
  · cases hbytes : player.toUTF8.toList with
    | nil => simp_all
    | cons byte bytes =>
        rw [List.flatMap_cons, List.append_assoc]
        exact head_encodeByte_ne_point byte _

theorem record_injective : Function.Injective record := by
  intro first second hsame
  exact stem_injective (List.append_cancel_right (String.ofList_injective hsame))

@[simp]
theorem record_inj {first second : String} : record first = record second ↔ first = second :=
  record_injective.eq_iff

/-- No player's temporary file is the record of a player. -/
@[simp]
theorem record_ne_temporary (player other : String) : record player ≠ temporary other := by
  intro hsame
  refine head_stem_ne_point player ['.', 'j', 's', 'o', 'n'] ?_
  rw [String.ofList_injective hsame]
  rfl

@[simp]
theorem isRecord_record (player : String) : isRecord (record player) = true := by
  have hhead := head_stem_ne_point player ['.', 'j', 's', 'o', 'n']
  unfold isRecord record
  rw [String.toList_ofList, Bool.and_eq_true, bne_iff_ne, List.isSuffixOf_iff_suffix]
  exact ⟨hhead, List.suffix_append _ _⟩

end FileName

end PokerCoach
