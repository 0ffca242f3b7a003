import PokerCoach.Proofs.Json.Line
import PokerCoach.Proofs.Json.Number

/-!
# What is read of a text

Whatever is read as a value is a text of its own between blanks, which is read as this value
wherever it stands. So a document is read exactly if it is such a text with blanks around it.
-/

namespace PokerCoach.Json

open Data

theorem exists_gap (cs : List Char) : ∃ gap, IsGap gap ∧ cs = gap ++ skipSpace cs :=
  ⟨cs.takeWhile isSpace, List.all_eq_true.mp List.all_takeWhile,
    List.takeWhile_append_dropWhile.symm⟩

/-! ### Quoted texts -/

theorem exists_front_of_readPieces {cs tail : List Char} {pieces : List Piece}
    (hread : readPieces cs = .ok (pieces, tail)) :
    ∃ front, cs = front ++ '"' :: tail ∧
      ∀ rest, readPieces (front ++ '"' :: rest) = .ok (pieces, rest) := by
  fun_induction readPieces cs generalizing pieces with
  | case1 => cases hread
  | case2 rest =>
      cases hread
      exact ⟨[], rfl, fun _ => by rw [List.nil_append, readPieces]⟩
  | case3 a b c d rest n hdigits ih =>
      obtain ⟨⟨more, left⟩, hmore, heq⟩ := exists_of_map_eq_ok hread
      cases heq
      obtain ⟨front, rfl, hagain⟩ := ih hmore
      refine ⟨'\\' :: 'u' :: a :: b :: c :: d :: front, rfl, fun rest => ?_⟩
      simp only [List.cons_append]
      rw [readPieces, hdigits, hagain]
      rfl
  | case4 => cases hread
  | case5 c rest hnumber e hescaped ih =>
      obtain ⟨⟨more, left⟩, hmore, heq⟩ := exists_of_map_eq_ok hread
      cases heq
      obtain ⟨front, rfl, hagain⟩ := ih hmore
      have hletter : c ≠ 'u' := by
        rintro rfl
        cases hescaped
      refine ⟨'\\' :: c :: front, rfl, fun rest => ?_⟩
      simp only [List.cons_append]
      rw [readPieces_letter hletter hescaped, hagain]
      rfl
  | case6 => cases hread
  | case7 => cases hread
  | case8 c rest hquote hnumber hletter hplain ih =>
      obtain ⟨⟨more, left⟩, hmore, heq⟩ := exists_of_map_eq_ok hread
      cases heq
      obtain ⟨front, rfl, hagain⟩ := ih hmore
      have hslash : c ≠ '\\' := fun heq => hplain (.inr heq)
      have hcontrol : ¬ c.toNat < 0x20 := fun hlt => hplain (.inl hlt)
      refine ⟨c :: front, rfl, fun rest => ?_⟩
      rw [List.cons_append, readPieces_plain (fun heq => hquote heq) hslash hcontrol, hagain]
      rfl

theorem exists_text_of_readText {cs tail : List Char} {s : Option String}
    (hread : readText cs = .ok (s, tail)) :
    ∃ text, cs = text ++ '"' :: tail ∧
      Reads ('"' :: (text ++ ['"'])) (s.elim (.foreign .unreadable) .text) := by
  obtain ⟨⟨pieces, left⟩, hpieces, heq⟩ := exists_of_map_eq_ok hread
  cases heq
  obtain ⟨front, hfront, hagain⟩ := exists_front_of_readPieces hpieces
  refine ⟨front, hfront, .of_cons (by decide) (by decide) fun fuel rest _ _ => ?_⟩
  rw [readValue_quote, List.append_assoc, readText, List.singleton_append, hagain]
  rfl

theorem exists_label_of_readName {cs tail : List Char} {name : Option FieldName}
    (hread : readName cs = .ok (name, tail)) :
    ∃ gap label, IsGap gap ∧ cs = gap ++ '"' :: (label ++ tail) ∧ ReadsName label name := by
  obtain ⟨gap, hgap, hcs⟩ := exists_gap cs
  rw [readName] at hread
  split at hread
  · next quoted hquote =>
      cases hpieces : readPieces quoted with
      | error fault =>
          rw [hpieces] at hread
          cases hread
      | ok pair =>
          obtain ⟨pieces, left⟩ := pair
          rw [hpieces] at hread
          dsimp only [bind, Except.bind] at hread
          split at hread
          · next after hcolon =>
              cases hread
              obtain ⟨front, hfront, hagain⟩ := exists_front_of_readPieces hpieces
              obtain ⟨space, hspace, hleft⟩ := exists_gap left
              refine ⟨gap, front ++ '"' :: (space ++ [':']), hgap, ?_, fun rest => ?_⟩
              · rw [hcs, hquote, hfront, hleft, hcolon]
                simp
              · rw [readName, skipSpace_cons (by decide), List.append_assoc, List.cons_append,
                  List.append_assoc]
                simp only [hagain, bind, Except.bind, skipSpace_append hspace]
                rfl
          · cases hread
  · cases hread

/-! ### Numbers -/

theorem exists_text_of_readNumber {negative : Bool} {cs tail : List Char} {v : Value}
    (hread : readNumber negative cs = .ok (v, tail)) :
    ∃ c digits, cs = c :: digits ++ tail ∧ c.isDigit = true ∧
      ∀ rest, EndsNumber rest → readNumber negative (c :: digits ++ rest) = .ok (v, rest) := by
  obtain ⟨front, hfront, hagain⟩ := isLocal_readNumber negative cs v tail hread
  have halone := hagain [] (.inr endsNumber_nil)
  rw [List.append_nil] at halone
  obtain ⟨c, digits, rfl, hdigit⟩ := exists_digit_of_readNumber halone
  exact ⟨c, digits, hfront, hdigit, fun rest hends => hagain rest (.inr hends)⟩

theorem exists_text_of_minus {cs tail : List Char} {v : Value}
    (hread : readNumber true cs = .ok (v, tail)) :
    ∃ text, cs = text ++ tail ∧ Reads ('-' :: text) v := by
  obtain ⟨c, digits, hcs, -, hagain⟩ := exists_text_of_readNumber hread
  refine ⟨_, hcs, .of_cons (by decide) (by decide) fun fuel rest _ hends => ?_⟩
  rw [readValue_minus]
  exact hagain rest hends

theorem exists_text_of_digit {cs tail : List Char} {v : Value}
    (hread : readNumber false cs = .ok (v, tail)) :
    ∃ text, cs = text ++ tail ∧ Reads text v := by
  obtain ⟨c, digits, hcs, hdigit, hagain⟩ := exists_text_of_readNumber hread
  have hclose : c ≠ ']' := by
    rintro rfl
    cases hdigit
  refine ⟨_, hcs, .of_cons (isSpace_eq_false_of_isDigit hdigit) hclose fun fuel rest _ hends => ?_⟩
  rw [readValue_digit fuel hdigit]
  exact hagain rest hends

/-! ### Trees -/

/-- Whatever is read with so much fuel has a text of its own. -/
structure Extents (fuel : Nat) : Prop where
  value {cs tail : List Char} {v : Value} (hread : readValue fuel cs = .ok (v, tail)) :
    ∃ gap text, IsGap gap ∧ cs = gap ++ (text ++ tail) ∧ Reads text v
  items {cs tail : List Char} {items : List Value}
    (hread : readItems fuel cs = .ok (items, tail)) :
    ∃ text, cs = text ++ ']' :: tail ∧ ReadsItems text items
  fields {cs tail : List Char} {fields : List (Option FieldName × Value)}
    (hread : readFields fuel cs = .ok (fields, tail)) :
    ∃ text, cs = text ++ '}' :: tail ∧ ReadsFields text fields

theorem extents_zero : Extents 0 where
  value hread := by
    rw [readValue] at hread
    cases hread
  items hread := by
    rw [readItems] at hread
    cases hread
  fields hread := by
    rw [readFields] at hread
    cases hread

namespace Extents

variable {fuel : Nat} (hextents : Extents fuel)
include hextents

theorem list {cs tail : List Char} {v : Value}
    (hread : readValue (fuel + 1) ('[' :: cs) = .ok (v, tail)) :
    ∃ text, cs = text ++ ']' :: tail ∧ Reads ('[' :: (text ++ [']'])) v := by
  rw [readValue_bracket] at hread
  split at hread
  · next hclose =>
      cases hread
      obtain ⟨gap, hgap, hcs⟩ := exists_gap cs
      exact ⟨gap, by rw [← hclose, ← hcs], reads_list_gap hgap⟩
  · obtain ⟨⟨items, left⟩, hitems, heq⟩ := exists_of_map_eq_ok hread
    cases heq
    obtain ⟨text, hcs, hreads⟩ := hextents.items hitems
    exact ⟨text, hcs, hreads.reads_list⟩

theorem record {cs tail : List Char} {v : Value}
    (hread : readValue (fuel + 1) ('{' :: cs) = .ok (v, tail)) :
    ∃ text, cs = text ++ '}' :: tail ∧ Reads ('{' :: (text ++ ['}'])) v := by
  rw [readValue_brace] at hread
  split at hread
  · next hclose =>
      cases hread
      obtain ⟨gap, hgap, hcs⟩ := exists_gap cs
      exact ⟨gap, by rw [← hclose, ← hcs], reads_record_gap hgap⟩
  · obtain ⟨⟨fields, left⟩, hfields, heq⟩ := exists_of_map_eq_ok hread
    cases heq
    obtain ⟨text, hcs, hreads⟩ := hextents.fields hfields
    exact ⟨text, hcs, hreads.reads_record⟩

theorem value_succ {cs tail : List Char} {v : Value}
    (hread : readValue (fuel + 1) cs = .ok (v, tail)) :
    ∃ gap text, IsGap gap ∧ cs = gap ++ (text ++ tail) ∧ Reads text v := by
  obtain ⟨gap, hgap, hcs⟩ := exists_gap cs
  suffices h : ∃ text, skipSpace cs = text ++ tail ∧ Reads text v by
    obtain ⟨text, htext, hreads⟩ := h
    exact ⟨gap, text, hgap, by rw [← htext, ← hcs], hreads⟩
  rw [readValue] at hread
  split at hread
  · next hnull =>
      cases hread
      exact ⟨_, hnull, reads_null⟩
  · next htrue =>
      cases hread
      exact ⟨_, htrue, reads_bool true⟩
  · next hfalse =>
      cases hread
      exact ⟨_, hfalse, reads_bool false⟩
  · next quoted hquote =>
      obtain ⟨⟨s, left⟩, hs, heq⟩ := exists_of_map_eq_ok hread
      cases heq
      obtain ⟨text, htext, hreads⟩ := exists_text_of_readText hs
      exact ⟨_, by simp [hquote, htext], hreads⟩
  · next listed hopen =>
      obtain ⟨text, htext, hreads⟩ := hextents.list ((readValue_bracket fuel listed).trans hread)
      exact ⟨_, by simp [hopen, htext], hreads⟩
  · next named hopen =>
      obtain ⟨text, htext, hreads⟩ := hextents.record ((readValue_brace fuel named).trans hread)
      exact ⟨_, by simp [hopen, htext], hreads⟩
  · next digits hminus =>
      obtain ⟨text, htext, hreads⟩ := exists_text_of_minus hread
      exact ⟨_, by simp [hminus, htext], hreads⟩
  · exact exists_text_of_digit hread

theorem items_succ {cs tail : List Char} {items : List Value}
    (hread : readItems (fuel + 1) cs = .ok (items, tail)) :
    ∃ text, cs = text ++ ']' :: tail ∧ ReadsItems text items := by
  cases hvalue : readValue fuel cs with
  | error fault =>
      rw [readItems, hvalue] at hread
      cases hread
  | ok pair =>
      obtain ⟨v, left⟩ := pair
      obtain ⟨gap, text, hgap, hcs, hreads⟩ := hextents.value hvalue
      obtain ⟨blank, hblank, hleft⟩ := exists_gap left
      rw [readItems, hvalue] at hread
      dsimp only [bind, Except.bind] at hread
      split at hread
      · next hclose =>
          cases hread
          rw [hclose] at hleft
          exact ⟨_, by simp [hcs, hleft], .single hgap hblank hreads⟩
      · next more hcomma =>
          cases hitems : readItems fuel more with
          | error fault =>
              rw [hitems] at hread
              cases hread
          | ok pair =>
              obtain ⟨rest, after⟩ := pair
              rw [hitems] at hread
              cases hread
              obtain ⟨listed, hmore, hlisted⟩ := hextents.items hitems
              rw [hcomma, hmore] at hleft
              exact ⟨_, by simp [hcs, hleft], .cons hgap hblank hreads hlisted⟩
      · cases hread

theorem fields_succ {cs tail : List Char} {fields : List (Option FieldName × Value)}
    (hread : readFields (fuel + 1) cs = .ok (fields, tail)) :
    ∃ text, cs = text ++ '}' :: tail ∧ ReadsFields text fields := by
  cases hname : readName cs with
  | error fault =>
      rw [readFields, hname] at hread
      cases hread
  | ok pair =>
      obtain ⟨name, valued⟩ := pair
      obtain ⟨before, label, hbefore, hcs, hlabel⟩ := exists_label_of_readName hname
      cases hvalue : readValue fuel valued with
      | error fault =>
          rw [readFields, hname] at hread
          dsimp only [bind, Except.bind] at hread
          rw [hvalue] at hread
          cases hread
      | ok pair =>
          obtain ⟨v, left⟩ := pair
          obtain ⟨gap, text, hgap, hvalued, hreads⟩ := hextents.value hvalue
          obtain ⟨blank, hblank, hleft⟩ := exists_gap left
          rw [readFields, hname] at hread
          dsimp only [bind, Except.bind] at hread
          rw [hvalue] at hread
          dsimp only at hread
          split at hread
          · next hclose =>
              cases hread
              rw [hclose] at hleft
              exact ⟨_, by simp [hcs, hvalued, hleft],
                .single hbefore hlabel hgap hreads hblank⟩
          · next more hcomma =>
              cases hfields : readFields fuel more with
              | error fault =>
                  rw [hfields] at hread
                  cases hread
              | ok pair =>
                  obtain ⟨rest, after⟩ := pair
                  rw [hfields] at hread
                  cases hread
                  obtain ⟨listed, hmore, hlisted⟩ := hextents.fields hfields
                  rw [hcomma, hmore] at hleft
                  exact ⟨_, by simp [hcs, hvalued, hleft],
                    .cons hbefore hlabel hgap hreads hblank hlisted⟩
          · cases hread

end Extents

theorem extents (fuel : Nat) : Extents fuel := by
  induction fuel with
  | zero => exact extents_zero
  | succ fuel ih => exact ⟨ih.value_succ, ih.items_succ, ih.fields_succ⟩

/-! ### Documents -/

theorem readValue_of_read {cs : List Char} {v : Value} (hread : Json.read cs = .ok v) :
    ∃ tail, readValue (2 * cs.length + 1) cs = .ok (v, tail) ∧ IsGap tail := by
  cases hvalue : readValue (2 * cs.length + 1) cs with
  | error fault =>
      rw [Json.read, hvalue] at hread
      cases hread
  | ok pair =>
      obtain ⟨w, tail⟩ := pair
      rw [Json.read, hvalue] at hread
      dsimp only [bind, Except.bind] at hread
      split at hread
      · next hempty =>
          cases hread
          obtain ⟨gap, hgap, htail⟩ := exists_gap tail
          rw [List.isEmpty_iff.mp hempty, List.append_nil] at htail
          exact ⟨tail, rfl, htail ▸ hgap⟩
      · cases hread

theorem Reads.read_gap {text : List Char} {v : Value} (hreads : Reads text v)
    {before after : List Char} (hbefore : IsGap before) (hafter : IsGap after) :
    Json.read (before ++ (text ++ after)) = .ok v := by
  have hends : EndsNumber after := by
    rw [← List.append_nil after]
    exact endsNumber_append hafter endsNumber_nil
  have hvalue : readValue (2 * (before ++ (text ++ after)).length + 1) (before ++ (text ++ after)) =
      .ok (v, after) :=
    hreads.readValue_gap hbefore (by simp only [List.length_append]; omega) hends
  have hblank : skipSpace after = [] := by
    rw [← List.append_nil after, skipSpace_append hafter]
    rfl
  rw [Json.read, hvalue]
  dsimp only [bind, Except.bind]
  rw [hblank]
  rfl

/-- A document is read as a value exactly if it is a text of this value between blanks. -/
theorem read_eq_ok_iff {cs : List Char} {v : Value} :
    Json.read cs = .ok v ↔
      ∃ before text after, IsGap before ∧ IsGap after ∧ cs = before ++ (text ++ after) ∧
        Reads text v := by
  constructor
  · intro hread
    obtain ⟨after, hvalue, hafter⟩ := readValue_of_read hread
    obtain ⟨before, text, hbefore, hcs, hreads⟩ := (extents _).value hvalue
    exact ⟨before, text, after, hbefore, hafter, hcs, hreads⟩
  · rintro ⟨before, text, after, hbefore, hafter, rfl, hreads⟩
    exact hreads.read_gap hbefore hafter

/-- A document that starts with a brace is one record, and blanks after it. -/
theorem exists_record_of_read {cs : List Char} {v : Value}
    (hread : Json.read ('{' :: cs) = .ok v) :
    ∃ text after, IsGap after ∧ cs = text ++ '}' :: after ∧ Reads ('{' :: (text ++ ['}'])) v := by
  obtain ⟨after, hvalue, hafter⟩ := readValue_of_read hread
  obtain ⟨text, hcs, hreads⟩ := (extents _).record hvalue
  exact ⟨text, after, hafter, hcs, hreads⟩

theorem isSpace_eq_false_of_isFrom {cs : List Char} (hfrom : Text.IsFrom 0x21 cs) {c : Char}
    (hc : c ∈ cs) : isSpace c = false := by
  rw [Bool.eq_false_iff]
  intro hspace
  have hle := hfrom c hc
  have hmem := mem_of_isSpace hspace
  simp only [List.mem_cons, List.not_mem_nil, or_false] at hmem
  rcases hmem with rfl | rfl | rfl | rfl <;> exact absurd hle (by decide)

theorem eq_nil_of_isGap {gap : List Char} (hgap : IsGap gap) (hfrom : Text.IsFrom 0x21 gap) :
    gap = [] := by
  cases gap with
  | nil => rfl
  | cons c gap =>
      have hspace := isSpace_eq_false_of_isFrom hfrom List.mem_cons_self
      rw [hgap c List.mem_cons_self] at hspace
      cases hspace

/-- A double whose text is read as that double alone is read so wherever it stands: in its text
there are no blanks. -/
theorem reads_decimalText {x : Float} (hread : Json.read (decimalText x) = .ok (.decimal x)) :
    Reads (decimalText x) (.decimal x) := by
  obtain ⟨before, text, after, hbefore, hafter, htext, hreads⟩ := read_eq_ok_iff.mp hread
  have hfrom := isFrom_decimalText x
  rw [htext, Text.isFrom_append, Text.isFrom_append] at hfrom
  obtain rfl := eq_nil_of_isGap hbefore hfrom.1
  obtain rfl := eq_nil_of_isGap hafter hfrom.2.2
  rw [htext, List.nil_append, List.append_nil]
  exact hreads

end PokerCoach.Json
