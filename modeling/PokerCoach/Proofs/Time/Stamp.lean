import PokerCoach.Proofs.Decimal.Digits
import PokerCoach.Time.Stamp

/-!
# Time stamps are read back

The stamp of an instant is read as that instant, leap seconds and every nanosecond included, for
years of four digits.
-/

namespace PokerCoach.Time

open Decimal

/-! ### Padded numbers -/

theorem length_padded {width n : Nat} (hwidth : 0 < width) (hn : n < Nat.pow 10 width) :
    (padded width n).length = width := by
  have hlength : (Nat.toDigits 10 n).length ≤ width :=
    (Nat.length_toDigits_le_iff (by decide) hwidth).mpr hn
  rw [padded, List.length_append, List.length_replicate]
  omega

theorem isDigit_padded {width n : Nat} {c : Char} (hc : c ∈ padded width n) :
    c.isDigit = true := by
  rcases List.mem_append.mp hc with hc | hc
  · rw [List.eq_of_mem_replicate hc]
    rfl
  · exact isDigit_toDigits hc

theorem digitsValue_padded (width n : Nat) : digitsValue (padded width n) = n := by
  rw [digitsValue_eq_ofDigitChars, padded, Nat.ofDigitChars_append,
    Nat.ofDigitChars_replicate_zero, Nat.mul_zero, Nat.ofDigitChars_ten_toDigits]

theorem spanDigits_padded (width n : Nat) {rest : List Char} (hends : EndsDigits rest) :
    spanDigits (padded width n ++ rest) = (padded width n, rest) :=
  spanDigits_append_of_isDigit (fun _ => isDigit_padded) hends

theorem padded_ne_nil (width n : Nat) : padded width n ≠ [] :=
  List.append_ne_nil_of_right_ne_nil _ Nat.toDigits_ne_nil

theorem exists_padded (width n : Nat) :
    ∃ c cs, padded width n = c :: cs ∧ c.isDigit = true := by
  obtain ⟨c, cs, hpadded⟩ := List.exists_cons_of_ne_nil (padded_ne_nil width n)
  have hc : c ∈ padded width n := by simp [hpadded]
  exact ⟨c, cs, hpadded, isDigit_padded hc⟩

theorem isBlank_eq_false_of_isDigit {c : Char} (hc : c.isDigit = true) :
    Text.isBlank c = false := by
  have hrange : 48 ≤ c.toNat ∧ c.toNat ≤ 57 := by
    simpa [Char.isDigit, UInt32.le_iff_toNat_le] using hc
  simp only [Text.isBlank, Bool.or_eq_false_iff, Bool.and_eq_false_iff, decide_eq_false_iff_not,
    beq_eq_false_iff_ne]
  omega

theorem trimStart_cons {c : Char} (hc : Text.isBlank c = false) (cs : List Char) :
    Text.trimStart (c :: cs) = c :: cs :=
  List.dropWhile_cons_of_neg (by simp [hc])

theorem trimStart_padded (width n : Nat) (rest : List Char) :
    Text.trimStart (padded width n ++ rest) = padded width n ++ rest := by
  obtain ⟨c, cs, hpadded, hc⟩ := exists_padded width n
  rw [hpadded]
  exact trimStart_cons (isBlank_eq_false_of_isDigit hc) _

/-! ### Parts of a stamp -/

theorem readPart_padded {width n : Nat} (hwidth : 0 < width) (hn : n < Nat.pow 10 width)
    {rest : List Char} (hends : EndsDigits rest) :
    readPart width (padded width n ++ rest) = some (n, rest) := by
  have hlength := length_padded hwidth hn
  have htake : (padded width n).take width = padded width n :=
    List.take_of_length_le (Nat.le_of_eq hlength)
  rw [readPart]
  simp only [trimStart_padded, spanDigits_padded width n hends, htake]
  rw [if_neg (by simpa using padded_ne_nil width n), digitsValue_padded, List.drop_left]

theorem readYear_padded {n : Nat} (hn : n < Nat.pow 10 4) {rest : List Char} (hends : EndsDigits rest) :
    readYear (padded 4 n ++ rest) = some ((n : Int), rest) := by
  have hpart := readPart_padded (by decide) hn hends
  obtain ⟨c, cs, hpadded, hc⟩ := exists_padded 4 n
  rw [readYear, trimStart_padded]
  rw [hpadded, List.cons_append] at hpart ⊢
  split
  · next heq =>
      rw [(List.cons.inj heq).1] at hc
      exact absurd hc (by decide)
  · next heq =>
      rw [(List.cons.inj heq).1] at hc
      exact absurd hc (by decide)
  · rw [hpart]
    rfl

theorem readMark_cons {c : Char} (hc : Text.isBlank c = false) (rest : List Char) :
    readMark c (c :: rest) = some rest := by
  rw [readMark, trimStart_cons hc]
  simp

theorem readPlaces_point {width n : Nat} (hwidth : width = 3 ∨ width = 6 ∨ width = 9)
    (hn : n < Nat.pow 10 width) {rest : List Char} (hends : EndsDigits rest) :
    readPlaces ('.' :: (padded width n ++ rest)) = some (n * Nat.pow 10 (9 - width), rest) := by
  have hlength := length_padded (by omega) hn
  have htake : (padded width n).take 9 = padded width n :=
    List.take_of_length_le (by omega)
  simp only [readPlaces, spanDigits_padded width n hends, htake, digitsValue_padded, hlength]
  rw [if_neg (by simpa using padded_ne_nil width n)]

theorem readPlaces_placesText {nano : Nat} (hnano : nano < 1000000000) :
    readPlaces (placesText nano ++ ['Z']) = some (nano, ['Z']) := by
  have hends : EndsDigits ['Z'] := endsDigits_cons (by decide) []
  unfold placesText
  split
  · next hzero => simp [hzero, readPlaces]
  split
  · next hmilli =>
      have hthousand : nano / 1000000 < 1000 := by omega
      have hback : nano / 1000000 * 1000000 = nano := by omega
      rw [List.cons_append, readPlaces_point (.inl rfl) hthousand hends]
      exact congrArg (fun nano => some (nano, ['Z'])) hback
  split
  · next hmicro =>
      have hmillion : nano / 1000 < 1000000 := by omega
      have hback : nano / 1000 * 1000 = nano := by omega
      rw [List.cons_append, readPlaces_point (.inr (.inl rfl)) hmillion hends]
      exact congrArg (fun nano => some (nano, ['Z'])) hback
  · rw [List.cons_append, readPlaces_point (.inr (.inr rfl)) hnano hends]
    exact congrArg (fun nano => some (nano, ['Z'])) (Nat.mul_one nano)

/-! ### Whole stamps -/

theorem daysInMonth_le (year : Int) (month : Nat) : daysInMonth year month ≤ 31 := by
  unfold daysInMonth
  split
  · split <;> decide
  · split <;> decide

theorem Instant.bounds (t : Instant) :
    t.month < 100 ∧ t.day < 100 ∧ t.hour < 24 ∧ t.minute < 60 ∧ t.second < 60 ∧
      (t.nano < 1000000000 ∨ t.second = 59 ∧ t.nano < 2000000000) := by
  have hdate := t.onCalendar
  have htime := t.onClock
  have hdays := daysInMonth_le t.year t.month
  simp only [isDate, isTime, Bool.and_eq_true, Bool.or_eq_true, decide_eq_true_eq] at hdate htime
  omega

/-- A clock that shows universal time. -/
theorem Instant.ofLocal?_zero (t : Instant) :
    Instant.ofLocal? t.year t.month t.day t.hour t.minute t.second t.nano 0 = some t := by
  obtain ⟨-, -, hhour, hminute, -, -⟩ := t.bounds
  have hnonneg : ¬ ((t.hour * 60 + t.minute - 0 : Int) < 0) := by omega
  have hbelow : ¬ ((1440 : Int) ≤ t.hour * 60 + t.minute - 0) := by omega
  have hminutes : ((t.hour * 60 + t.minute - 0 : Int) % 1440).toNat = t.hour * 60 + t.minute := by
    omega
  have hdiv : (t.hour * 60 + t.minute) / 60 = t.hour := by omega
  have hmod : (t.hour * 60 + t.minute) % 60 = t.minute := by omega
  rw [Instant.ofLocal?, if_neg (by simp [t.onCalendar])]
  simp only [if_neg hnonneg, if_neg hbelow, hminutes, hdiv, hmod]
  rw [Instant.make?, dif_pos t.onCalendar, dif_pos t.onClock]

/-- The second that a stamp shows is 60 within a leap second only. -/
theorem Instant.second_of_shown (t : Instant) :
    (if t.second + (if 1000000000 ≤ t.nano then 1 else 0) = 60 then
        (59, t.nano % 1000000000 + 1000000000)
      else (t.second + (if 1000000000 ≤ t.nano then 1 else 0), t.nano % 1000000000)) =
      (t.second, t.nano) := by
  obtain ⟨-, -, -, -, hsecond, hnano⟩ := t.bounds
  split
  · next hleap =>
      rw [if_pos (by omega)]
      ext <;> simp only <;> omega
  · next hleap =>
      rw [if_neg (by omega)]
      ext <;> simp only <;> omega

theorem endsDigits_placesText (nano : Nat) : EndsDigits (placesText nano ++ ['Z']) := by
  unfold placesText
  repeat' split
  all_goals exact endsDigits_cons (by decide) _

/-- A stamp is read if its parts are, one after the other. -/
theorem readStamp?_of_parts {t : Instant} {text : String} {second nano : Nat}
    {afterYear afterMonth afterDay afterHour afterMinute afterSecond : List Char}
    (hyear : readYear text.toList = some (t.year, '-' :: afterYear))
    (hmonth : readPart 2 afterYear = some (t.month, '-' :: afterMonth))
    (hday : readPart 2 afterMonth = some (t.day, 'T' :: afterDay))
    (hhour : readPart 2 afterDay = some (t.hour, ':' :: afterHour))
    (hminute : readPart 2 afterHour = some (t.minute, ':' :: afterMinute))
    (hsecond : readPart 2 afterMinute = some (second, afterSecond))
    (hplaces : readPlaces afterSecond = some (nano, ['Z']))
    (hshown : (if second = 60 then (59, nano + 1000000000) else (second, nano)) =
      (t.second, t.nano))
    (hknown : isKnownYear t.year = true) : readStamp? text = some t := by
  obtain ⟨-, -, hhours, hminutes, -, -⟩ := t.bounds
  have hdash (rest : List Char) := readMark_cons (c := '-') (by decide) rest
  have hcolon (rest : List Char) := readMark_cons (c := ':') (by decide) rest
  have hoffset : readOffset (Text.trimStart ['Z']) = some (0, []) := rfl
  have hrange : ¬ ((!Text.isBlankText []) = true ∨ (!isKnownYear t.year) = true ∨
      24 ≤ t.hour ∨ 60 ≤ t.minute) := by
    simp [Text.isBlankText, hknown, hhours, hminutes]
  refine Option.bind_eq_some_iff.mpr ⟨_, hyear, ?_⟩
  refine Option.bind_eq_some_iff.mpr ⟨_, hdash _, ?_⟩
  refine Option.bind_eq_some_iff.mpr ⟨_, hmonth, ?_⟩
  refine Option.bind_eq_some_iff.mpr ⟨_, hdash _, ?_⟩
  refine Option.bind_eq_some_iff.mpr ⟨_, hday, ?_⟩
  refine Option.bind_eq_some_iff.mpr ⟨_, rfl, ?_⟩
  refine Option.bind_eq_some_iff.mpr ⟨_, hhour, ?_⟩
  refine Option.bind_eq_some_iff.mpr ⟨_, hcolon _, ?_⟩
  refine Option.bind_eq_some_iff.mpr ⟨_, hminute, ?_⟩
  refine Option.bind_eq_some_iff.mpr ⟨_, hcolon _, ?_⟩
  refine Option.bind_eq_some_iff.mpr ⟨_, hsecond, ?_⟩
  refine Option.bind_eq_some_iff.mpr ⟨_, hplaces, ?_⟩
  refine Option.bind_eq_some_iff.mpr ⟨_, hoffset, ?_⟩
  dsimp only
  rw [if_neg hrange, hshown]
  refine Option.bind_eq_some_iff.mpr ⟨t, t.ofLocal?_zero, if_pos hknown⟩

theorem readStamp?_stamp {t : Instant} (hnonneg : 0 ≤ t.year) (hyear : t.year ≤ 9999) :
    readStamp? t.stamp = some t := by
  obtain ⟨hmonth, hday, hhour, hminute, hsecond, -⟩ := t.bounds
  have htext : yearText t.year = padded 4 t.year.toNat := if_pos ⟨hnonneg, hyear⟩
  have hreadYear (rest : List Char) :
      readYear (padded 4 t.year.toNat ++ '-' :: rest) = some (t.year, '-' :: rest) := by
    have hdigits : t.year.toNat < 10000 := by omega
    rw [readYear_padded hdigits (endsDigits_cons (by decide) rest), Int.toNat_of_nonneg hnonneg]
  have hreadPart (n : Nat) (hn : n < 100) (mark : Char) (hmark : mark.isDigit = false)
      (rest : List Char) : readPart 2 (padded 2 n ++ mark :: rest) = some (n, mark :: rest) :=
    readPart_padded (by decide) hn (endsDigits_cons hmark rest)
  have hknown : isKnownYear t.year = true := by
    simp only [isKnownYear, Bool.and_eq_true, decide_eq_true_eq]
    omega
  refine readStamp?_of_parts ?_ (hreadPart _ hmonth '-' rfl _) (hreadPart _ hday 'T' rfl _)
    (hreadPart _ (by omega) ':' rfl _) (hreadPart _ (by omega) ':' rfl _)
    (readPart_padded (by decide) ?_ (endsDigits_placesText (t.nano % 1000000000)))
    (readPlaces_placesText (Nat.mod_lt t.nano (by decide))) t.second_of_shown hknown
  · rw [Instant.stamp, String.toList_ofList, Instant.dateText, htext]
    simp only [List.append_assoc, List.cons_append]
    exact hreadYear _
  · change _ < 100
    split <;> omega

end PokerCoach.Time
