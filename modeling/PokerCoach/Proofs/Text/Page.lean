import PokerCoach.Text.Basic
import Mathlib.Data.List.Forall2

/-!
# Pages

Texts on lines of their own, among lines of blanks, and what the lines of such a page are: the texts
in their order, but for a carriage return at the end of one, which its line feed takes along.
-/

namespace PokerCoach.Text

theorem linesFrom_append_feed {line : List Char} (hline : '\n' ∉ line)
    (current rest : List Char) :
    linesFrom current (line ++ '\n' :: rest) =
      dropReturn (current.reverse ++ line) :: linesFrom [] rest := by
  induction line generalizing current with
  | nil => rw [List.nil_append, linesFrom, List.append_nil]
  | cons c line ih =>
      have hc : c ≠ '\n' := fun heq => hline (heq ▸ List.mem_cons_self)
      have hrest : '\n' ∉ line := fun hmem => hline (List.mem_cons_of_mem c hmem)
      rw [List.cons_append, linesFrom, ih hrest, List.reverse_cons, List.append_assoc,
        List.singleton_append]
      exact hc

theorem lines_append_feed {line : List Char} (hline : '\n' ∉ line) (rest : List Char) :
    lines (line ++ '\n' :: rest) = dropReturn line :: lines rest :=
  linesFrom_append_feed hline [] rest

theorem linesFrom_of_not_mem {line : List Char} (hline : '\n' ∉ line) (current : List Char) :
    linesFrom current line =
      if (current.reverse ++ line).isEmpty then [] else [current.reverse ++ line] := by
  induction line generalizing current with
  | nil => simp [linesFrom]
  | cons c line ih =>
      have hc : c ≠ '\n' := fun heq => hline (heq ▸ List.mem_cons_self)
      have hrest : '\n' ∉ line := fun hmem => hline (List.mem_cons_of_mem c hmem)
      rw [linesFrom, ih hrest, List.reverse_cons, List.append_assoc, List.singleton_append]
      exact hc

theorem dropReturn_of_not_mem {line : List Char} (hline : '\r' ∉ line) :
    dropReturn line = line :=
  if_neg fun hlast => hline (List.mem_of_getLast? hlast)

theorem dropReturn_append_return (line : List Char) : dropReturn (line ++ ['\r']) = line := by
  simp [dropReturn]

/-- Behind a text that ends otherwise, a carriage return is dropped from what comes after the
text. -/
theorem exists_dropReturn_append {front back : List Char} (hfront : front.getLast? ≠ some '\r') :
    ∃ kept, kept ⊆ back ∧ dropReturn (front ++ back) = front ++ kept := by
  rcases List.eq_nil_or_concat' back with rfl | ⟨init, c, rfl⟩
  · exact ⟨[], List.Subset.refl _, by rw [List.append_nil, dropReturn, if_neg hfront]⟩
  · by_cases hreturn : c = '\r'
    · subst hreturn
      refine ⟨init, List.subset_append_left _ _, ?_⟩
      rw [← List.append_assoc, dropReturn_append_return]
    · refine ⟨init ++ [c], List.Subset.refl _, ?_⟩
      simp [dropReturn, hreturn]

theorem isBlankText_dropReturn (line : List Char) :
    isBlankText (dropReturn line) = isBlankText line := by
  unfold dropReturn
  split
  · next hlast =>
      obtain ⟨front, rfl⟩ := List.getLast?_eq_some_iff.mp hlast
      have hreturn : isBlank '\r' = true := by decide
      simp [isBlankText, hreturn]
  · rfl

/-! ### Layouts -/

/-- A page with the given texts on lines of their own, in this order, and nothing else but lines of
blanks. A line ends with a line feed or with a carriage return and a line feed; what follows the
last of these is a line as well. -/
inductive Lists : List (List Char) → List Char → Prop
  | lastBlank {line : List Char} (hblank : isBlankText line = true) (hfeed : '\n' ∉ line) :
      Lists [] line
  | lastText {text : List Char} (hfeed : '\n' ∉ text) : Lists [text] text
  | blank {line page : List Char} {texts : List (List Char)} (hblank : isBlankText line = true)
      (hfeed : '\n' ∉ line) (ending : List Char) (hending : ending ∈ [['\n'], ['\r', '\n']])
      (hrest : Lists texts page) : Lists texts (line ++ ending ++ page)
  | text {text page : List Char} {texts : List (List Char)} (hfeed : '\n' ∉ text)
      (ending : List Char) (hending : ending ∈ [['\n'], ['\r', '\n']])
      (hrest : Lists texts page) : Lists (text :: texts) (text ++ ending ++ page)

/-- Whether a line holds a text, up to a carriage return at the end of the text. -/
def IsLineOf (line text : List Char) : Prop :=
  line = text ∨ line = dropReturn text

theorem IsLineOf.isBlankText_eq {line text : List Char} (hline : IsLineOf line text) :
    isBlankText line = isBlankText text := by
  rcases hline with rfl | rfl
  · rfl
  · exact isBlankText_dropReturn text

/-- What a line and its end are before the lines of the rest. -/
theorem exists_lines_append {line ending : List Char} (hfeed : '\n' ∉ line)
    (hending : ending ∈ [['\n'], ['\r', '\n']]) (page : List Char) :
    ∃ shown, IsLineOf shown line ∧ lines (line ++ ending ++ page) = shown :: lines page := by
  simp only [List.mem_cons, List.not_mem_nil, or_false] at hending
  rcases hending with rfl | rfl
  · refine ⟨_, .inr rfl, ?_⟩
    rw [List.append_assoc, List.singleton_append, lines_append_feed hfeed]
  · refine ⟨line, .inl rfl, ?_⟩
    have hreturn : '\n' ∉ line ++ ['\r'] := by simpa using hfeed
    have hlines := lines_append_feed hreturn page
    rw [dropReturn_append_return] at hlines
    simpa using hlines

/-- The lines of a page that are not blank hold its texts. -/
theorem Lists.forall₂_lines {texts : List (List Char)} {page : List Char}
    (hpage : Lists texts page) (htexts : ∀ text ∈ texts, isBlankText text = false) :
    List.Forall₂ IsLineOf ((lines page).filter fun line => !isBlankText line) texts := by
  induction hpage with
  | lastBlank hblank hfeed =>
      rw [lines, linesFrom_of_not_mem hfeed]
      split <;> simp [hblank]
  | @lastText text hfeed =>
      have htext := htexts text List.mem_cons_self
      have hne : text ≠ [] := by
        rintro rfl
        cases htext
      rw [lines, linesFrom_of_not_mem hfeed]
      simp [hne, htext, IsLineOf]
  | blank hblank hfeed ending hending _ ih =>
      obtain ⟨shown, hshown, hlines⟩ := exists_lines_append hfeed hending _
      rw [hlines, List.filter_cons_of_neg (by simp [hshown.isBlankText_eq, hblank])]
      exact ih htexts
  | text hfeed ending hending _ ih =>
      obtain ⟨htext, hrest⟩ := List.forall_mem_cons.mp htexts
      obtain ⟨shown, hshown, hlines⟩ := exists_lines_append hfeed hending _
      rw [hlines, List.filter_cons_of_pos (by simp [hshown.isBlankText_eq, htext])]
      exact .cons hshown (ih hrest)

theorem trimStart_append_of_blank {front : List Char} (hblank : isBlankText front = true)
    (rest : List Char) : trimStart (front ++ rest) = trimStart rest :=
  List.dropWhile_append_of_pos (List.all_eq_true.mp hblank)

theorem trimStart_cons_of_not_blank {c : Char} (hc : isBlank c = false) (rest : List Char) :
    trimStart (c :: rest) = c :: rest :=
  List.dropWhile_cons_of_neg (by simp [hc])

theorem isBlankText_of_ending {ending : List Char} (hending : ending ∈ [['\n'], ['\r', '\n']]) :
    isBlankText ending = true := by
  simp only [List.mem_cons, List.not_mem_nil, or_false] at hending
  rcases hending with rfl | rfl <;> decide

/-- Behind its blanks a page starts like its texts. -/
theorem Lists.head?_trimStart {texts : List (List Char)} {page : List Char}
    (hpage : Lists texts page) {c : Char} (hc : isBlank c = false)
    (htexts : ∀ text ∈ texts, text.head? = some c) : ∀ d ∈ (trimStart page).head?, d = c := by
  have hstarts {text : List Char} (hhead : text.head? = some c) (rest : List Char) :
      ∀ d ∈ (trimStart (text ++ rest)).head?, d = c := by
    obtain ⟨more, rfl⟩ := List.head?_eq_some_iff.mp hhead
    rw [List.cons_append, trimStart_cons_of_not_blank hc]
    rintro d ⟨⟩
    rfl
  induction hpage with
  | lastBlank hblank =>
      rw [trimStart_eq_nil_iff.mpr hblank]
      rintro d ⟨⟩
  | lastText =>
      have hlast := hstarts (htexts _ List.mem_cons_self) []
      rwa [List.append_nil] at hlast
  | blank hblank _ ending hending _ ih =>
      rw [List.append_assoc, trimStart_append_of_blank hblank,
        trimStart_append_of_blank (isBlankText_of_ending hending)]
      exact ih htexts
  | text =>
      rw [List.append_assoc]
      exact hstarts (htexts _ List.mem_cons_self) _

end PokerCoach.Text
