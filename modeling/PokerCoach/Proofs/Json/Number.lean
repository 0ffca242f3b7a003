import PokerCoach.Proofs.Json.Tree

/-!
# Numbers are read wherever they stand

A number that is read is a front of its text, and this front is read in the same way before all that
goes on as the text did, and before all that ends a number.
-/

namespace PokerCoach

namespace Decimal

theorem endsDigits_spanDigits (cs : List Char) : EndsDigits (spanDigits cs).2 := by
  induction cs with
  | nil =>
      intro c hc
      cases hc
  | cons c cs ih =>
      rw [spanDigits]
      split
      · exact ih
      · next hdigit => exact endsDigits_cons (Bool.eq_false_iff.mpr hdigit) cs

/-- The sign is the same before all other digits. -/
theorem exists_spanSign_append (cs : List Char) :
    ∃ sign, cs = sign ++ (spanSign cs).2 ∧
      ∀ {c : Char}, c.isDigit = true → ∀ rest,
        spanSign (sign ++ c :: rest) = ((spanSign cs).1, c :: rest) := by
  unfold spanSign
  split
  · exact ⟨['-'], rfl, fun _ _ => rfl⟩
  · exact ⟨['+'], rfl, fun _ _ => rfl⟩
  · refine ⟨[], rfl, fun {c} hdigit rest => ?_⟩
    have hminus : c ≠ '-' := by
      rintro rfl
      cases hdigit
    have hplus : c ≠ '+' := by
      rintro rfl
      cases hdigit
    simp [hminus, hplus]

end Decimal

namespace Json

open Data Decimal

/-! ### Parts of a number -/

/-- Whether a text goes on as another one does, or with what ends a number. -/
def GoesOnLike (tail rest : List Char) : Prop :=
  rest.head? = tail.head? ∨ EndsNumber rest

theorem GoesOnLike.append {tail rest : List Char} (hlike : GoesOnLike tail rest)
    (front : List Char) : GoesOnLike (front ++ tail) (front ++ rest) := by
  cases front with
  | nil => exact hlike
  | cons c front => exact .inl rfl

theorem GoesOnLike.endsDigits {tail rest : List Char} (hlike : GoesOnLike tail rest)
    (hends : EndsDigits tail) : EndsDigits rest := by
  rcases hlike with hhead | hnumber
  · rwa [EndsDigits, hhead]
  · exact hnumber.endsDigits

/-- A reader that takes a front of the text that it is given, and takes the same of this front if
the text goes on alike. -/
def IsLocal {α : Type} (read : List Char → Except Fault (α × List Char)) : Prop :=
  ∀ cs a tail, read cs = .ok (a, tail) →
    ∃ front, cs = front ++ tail ∧
      ∀ rest, GoesOnLike tail rest → read (front ++ rest) = .ok (a, rest)

variable {α β : Type} {read : List Char → Except Fault (α × List Char)}

theorem isLocal_pure (a : α) : IsLocal fun cs => .ok (a, cs) := by
  rintro cs b tail ⟨⟩
  exact ⟨[], rfl, fun _ _ => rfl⟩

theorem isLocal_malformed : IsLocal (malformed : List Char → Except Fault (α × List Char)) := by
  rintro cs a tail ⟨⟩

theorem IsLocal.bind {next : α → List Char → Except Fault (β × List Char)} (hread : IsLocal read)
    (hnext : ∀ a, IsLocal (next a)) :
    IsLocal fun cs => read cs >>= fun pair => next pair.1 pair.2 := by
  intro cs b tail hboth
  dsimp only at hboth ⊢
  cases hfirst : read cs with
  | error fault =>
      rw [hfirst] at hboth
      cases hboth
  | ok pair =>
      rw [hfirst] at hboth
      obtain ⟨front, hfront, hagain⟩ := hread cs pair.1 pair.2 hfirst
      obtain ⟨more, hmore, hthen⟩ := hnext pair.1 pair.2 b tail hboth
      refine ⟨front ++ more, by rw [List.append_assoc, ← hmore, ← hfront], fun rest hlike => ?_⟩
      rw [List.append_assoc, hagain (more ++ rest) (hmore ▸ hlike.append more)]
      exact hthen rest hlike

theorem IsLocal.map (hread : IsLocal read) (f : α → β) :
    IsLocal fun cs => (read cs).map fun pair => (f pair.1, pair.2) := by
  have hbind := hread.bind fun a => isLocal_pure (f a)
  refine (congrArg IsLocal (funext fun cs => ?_)).mp hbind
  cases read cs <;> rfl

theorem isLocal_readDigits : IsLocal readDigits := by
  intro cs digits tail hread
  unfold readDigits at hread
  dsimp only at hread
  split at hread
  · cases hread
  · next hne =>
      cases hread
      refine ⟨_, (spanDigits_append cs).symm, fun rest hlike => ?_⟩
      rw [readDigits, spanDigits_append_of_isDigit (fun _ => isDigit_of_mem_spanDigits)
        (hlike.endsDigits (endsDigits_spanDigits cs))]
      exact if_neg hne

theorem exists_of_map_eq_ok {ε γ δ : Type} {result : Except ε γ} {f : γ → δ} {d : δ}
    (hmap : result.map f = .ok d) : ∃ c, result = .ok c ∧ f c = d := by
  cases result with
  | error e => cases hmap
  | ok c =>
      cases hmap
      exact ⟨c, rfl, rfl⟩

theorem exists_digit_of_readDigits {cs digits tail : List Char}
    (hread : readDigits cs = .ok (digits, tail)) :
    ∃ c rest, cs = c :: rest ∧ c.isDigit = true := by
  cases cs with
  | nil => cases hread
  | cons c rest =>
      refine ⟨c, rest, rfl, ?_⟩
      cases hdigit : c.isDigit with
      | true => rfl
      | false =>
          have hnone : readDigits (c :: rest) = malformed (c :: rest) := by
            simp [readDigits, spanDigits, hdigit]
          rw [hnone] at hread
          cases hread

theorem isLocal_readPlaces : IsLocal readPlaces := by
  intro cs places tail hread
  have hnone {c : Char} (hpoint : c ≠ '.') (cs : List Char) :
      readPlaces (c :: cs) = .ok (none, c :: cs) := by
    simp [readPlaces, hpoint]
  cases cs with
  | nil =>
      cases hread
      refine ⟨[], rfl, fun rest hlike => readPlaces_of_endsNumber ?_⟩
      rcases hlike with hhead | hends
      · rw [List.head?_eq_none_iff.mp hhead]
        exact endsNumber_nil
      · exact hends
  | cons c cs =>
      by_cases hpoint : c = '.'
      · subst hpoint
        obtain ⟨front, rfl, hagain⟩ := isLocal_readDigits.map some cs places tail hread
        exact ⟨'.' :: front, rfl, hagain⟩
      · rw [hnone hpoint] at hread
        cases hread
        refine ⟨[], rfl, fun rest hlike => ?_⟩
        rcases hlike with hhead | hends
        · obtain ⟨more, rfl⟩ := List.head?_eq_some_iff.mp hhead
          exact hnone hpoint more
        · exact readPlaces_of_endsNumber hends

/-- A sign needs digits after it. -/
theorem isLocal_readExponent : IsLocal readExponent := by
  intro cs exponent tail hread
  have hnone {c : Char} (hmark : ¬ (c = 'e' ∨ c = 'E')) (cs : List Char) :
      readExponent (c :: cs) = .ok (none, c :: cs) := by
    simp [readExponent, hmark]
  cases cs with
  | nil =>
      cases hread
      refine ⟨[], rfl, fun rest hlike => readExponent_of_endsNumber ?_⟩
      rcases hlike with hhead | hends
      · rw [List.head?_eq_none_iff.mp hhead]
        exact endsNumber_nil
      · exact hends
  | cons c cs =>
      by_cases hmark : c = 'e' ∨ c = 'E'
      · have hsome (cs : List Char) : readExponent (c :: cs) =
            (readDigits (spanSign cs).2).map fun pair =>
              (some (if (spanSign cs).1 then -(digitsValue pair.1 : Int) else digitsValue pair.1),
                pair.2) := by
          simp [readExponent, hmark]
        rw [hsome] at hread
        obtain ⟨sign, hsign, hsame⟩ := exists_spanSign_append cs
        obtain ⟨digits, hdigits, hagain⟩ := isLocal_readDigits.map (fun digits => some
          (if (spanSign cs).1 then -(digitsValue digits : Int) else digitsValue digits))
          (spanSign cs).2 exponent tail hread
        refine ⟨c :: (sign ++ digits), ?_, fun rest hlike => ?_⟩
        · rw [List.cons_append, List.append_assoc, ← hdigits, ← hsign]
        · have hread := hagain rest hlike
          obtain ⟨pair, hpair, -⟩ := exists_of_map_eq_ok hread
          obtain ⟨d, more, hcons, hdigit⟩ := exists_digit_of_readDigits hpair
          rw [List.cons_append, List.append_assoc, hcons, hsome, hsame hdigit, ← hcons]
          exact hread
      · rw [hnone hmark] at hread
        cases hread
        refine ⟨[], rfl, fun rest hlike => ?_⟩
        rcases hlike with hhead | hends
        · obtain ⟨more, rfl⟩ := List.head?_eq_some_iff.mp hhead
          exact hnone hmark more
        · exact readExponent_of_endsNumber hends

theorem isLocal_readNumber (negative : Bool) : IsLocal (readNumber negative) := by
  have hrest (whole : List Char) : IsLocal fun rest =>
      if whole.head? = some '0' ∧ whole.length ≠ 1 then malformed rest
      else readPlaces rest >>= fun places => readExponent places.2 >>= fun exponent =>
        .ok (numberValue negative whole places.1 exponent.1, exponent.2) := by
    by_cases hzero : whole.head? = some '0' ∧ whole.length ≠ 1
    · simp only [if_pos hzero]
      exact isLocal_malformed
    · simp only [if_neg hzero]
      exact isLocal_readPlaces.bind fun places => isLocal_readExponent.bind fun exponent =>
        isLocal_pure (numberValue negative whole places exponent)
  exact isLocal_readDigits.bind hrest

theorem exists_digit_of_readNumber {negative : Bool} {cs tail : List Char} {v : Value}
    (hread : readNumber negative cs = .ok (v, tail)) :
    ∃ c rest, cs = c :: rest ∧ c.isDigit = true := by
  cases hdigits : readDigits cs with
  | error fault =>
      rw [readNumber, hdigits] at hread
      cases hread
  | ok pair => exact exists_digit_of_readDigits hdigits

end Json

end PokerCoach
