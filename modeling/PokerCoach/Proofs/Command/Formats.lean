import PokerCoach.Command.Replay
import PokerCoach.Proofs.Json.Extent
import PokerCoach.Proofs.Text.Page

/-!
# The two formats of a replay file

Records that can be read one by one are read alike from an array of them and from lines of their
own. A file of lines cannot be read exactly if one of its lines is neither blank nor a record, and
the error tells the number of the first such line.
-/

namespace PokerCoach

open Data Text

theorem mapM_eq_ok_iff {ε α β : Type} {f : α → Except ε β} {as : List α} {bs : List β} :
    as.mapM f = .ok bs ↔ List.Forall₂ (fun a b => f a = .ok b) as bs := by
  induction as generalizing bs with
  | nil =>
      rw [List.mapM_nil, List.forall₂_nil_left_iff]
      exact ⟨fun h => by cases h; rfl, fun h => by rw [h]; rfl⟩
  | cons a as ih =>
      rw [List.mapM_cons, List.forall₂_cons_left_iff]
      cases hfirst : f a with
      | error e => simp [bind, Except.bind]
      | ok b =>
          cases hrest : as.mapM f with
          | error e => simp [bind, Except.bind, ← ih, hrest]
          | ok rest => simp [bind, Except.bind, pure, Except.pure, ← ih, hrest, eq_comm]

theorem exists_of_toOption_map {ε α β : Type} {result : Except ε α} {f : α → β} {b : β}
    (hmap : result.toOption.map f = some b) : ∃ a, result = .ok a ∧ f a = b := by
  cases result with
  | error e => cases hmap
  | ok a => exact ⟨a, rfl, Option.some.inj hmap⟩

theorem exists_of_toOption_isNone {ε α : Type} {result : Except ε α}
    (hnone : result.toOption.isNone = true) : ∃ e, result = .error e := by
  cases result with
  | error e => exact ⟨e, rfl⟩
  | ok a => cases hnone

/-! ### Texts of records -/

namespace Json

variable {α : Type} [OfData α]

theorem decode_eq_ok_iff {cs : List Char} {a : α} :
    decode cs = .ok a ↔ ∃ v, Json.read cs = .ok v ∧ ofData .json v = .ok a := by
  unfold decode
  cases Json.read cs <;> simp [bind, Except.bind]

/-- A text with blanks after it that is read as a value. -/
def ReadsBeforeGap (cs : List Char) (v : Value) : Prop :=
  ∃ text after, IsGap after ∧ cs = text ++ after ∧ Reads text v

theorem readsBeforeGap_of_decode {cs : List Char} {a : α} (hopen : cs.head? = some '{')
    (hdecode : decode cs = .ok a) : ∃ v, ReadsBeforeGap cs v ∧ ofData .json v = .ok a := by
  obtain ⟨cs, rfl⟩ := List.head?_eq_some_iff.mp hopen
  obtain ⟨v, hread, hdata⟩ := decode_eq_ok_iff.mp hdecode
  obtain ⟨text, after, hafter, rfl, hreads⟩ := exists_record_of_read hread
  exact ⟨v, ⟨_, after, hafter, by simp, hreads⟩, hdata⟩

/-- The carriage return that a line loses is no part of a record. -/
theorem decode_of_isLineOf {line cs : List Char} {a : α} (hopen : cs.head? = some '{')
    (hdecode : decode cs = .ok a) (hline : IsLineOf line cs) : decode line = .ok a := by
  rcases hline with rfl | rfl
  · exact hdecode
  · obtain ⟨cs, rfl⟩ := List.head?_eq_some_iff.mp hopen
    obtain ⟨v, hread, hdata⟩ := decode_eq_ok_iff.mp hdecode
    obtain ⟨text, after, hafter, rfl, hreads⟩ := exists_record_of_read hread
    have hlast : ('{' :: text ++ ['}']).getLast? ≠ some '\r' := by
      rw [List.getLast?_concat]
      decide
    obtain ⟨kept, hkept, hdrop⟩ : ∃ kept, kept ⊆ after ∧
        dropReturn ('{' :: text ++ ['}'] ++ after) = '{' :: text ++ ['}'] ++ kept :=
      exists_dropReturn_append hlast
    have hagain := hreads.read_gap isGap_nil fun c hc => hafter c (hkept hc)
    refine decode_eq_ok_iff.mpr ⟨v, ?_, hdata⟩
    rw [show '{' :: (text ++ '}' :: after) = '{' :: text ++ ['}'] ++ after by simp, hdrop]
    exact hagain

variable {gap : List Char} (hgap : IsGap gap)
include hgap

theorem readsItems_of_readsBeforeGap {texts : List (List Char)} {values : List Value}
    (htexts : List.Forall₂ ReadsBeforeGap texts values) (hne : texts ≠ []) {lead : List Char}
    (hlead : IsGap lead) : ReadsItems (lead ++ List.intercalate (',' :: gap) texts) values := by
  induction htexts generalizing lead with
  | nil => exact absurd rfl hne
  | @cons text v texts values htext hrest ih =>
      obtain ⟨text, after, hafter, rfl, hreads⟩ := htext
      cases hrest with
      | nil =>
          rw [List.intercalate_singleton]
          exact .single hlead hafter hreads
      | cons hnext hrest =>
          have hmore := ih (List.cons_ne_nil _ _) hgap
          have hcons := ReadsItems.cons hlead hafter hreads hmore
          simpa [List.intercalate_cons_cons] using hcons

theorem read_array {texts : List (List Char)} {values : List Value}
    (htexts : List.Forall₂ ReadsBeforeGap texts values) :
    Json.read ('[' :: (List.intercalate (',' :: gap) texts ++ [']'])) = .ok (.list values) := by
  cases htexts with
  | nil => exact reads_list_nil.read
  | cons hfirst hrest =>
      have hitems := readsItems_of_readsBeforeGap hgap (.cons hfirst hrest) (List.cons_ne_nil _ _)
        isGap_nil
      exact hitems.reads_list.read

/-- Texts that each hold a record are read as well when an array lists them. -/
theorem decode_array {texts : List (List Char)} {records : List α}
    (htexts : List.Forall₂ (fun text record => text.head? = some '{' ∧ decode text = .ok record)
      texts records) :
    decode ('[' :: (List.intercalate (',' :: gap) texts ++ [']'])) = .ok records := by
  obtain ⟨values, hreads, hdata⟩ : ∃ values, List.Forall₂ ReadsBeforeGap texts values ∧
      List.Forall₂ (fun v record => ofData .json v = .ok record) values records := by
    induction htexts with
    | nil => exact ⟨[], .nil, .nil⟩
    | cons hfirst _ ih =>
        obtain ⟨values, hreads, hdata⟩ := ih
        obtain ⟨v, hv, hrecord⟩ := readsBeforeGap_of_decode hfirst.1 hfirst.2
        exact ⟨v :: values, .cons hv hreads, .cons hrecord hdata⟩
  exact decode_eq_ok_iff.mpr ⟨.list values, read_array hgap hreads, mapM_eq_ok_iff.mpr hdata⟩

end Json

namespace Replay

/-- A text of one line that holds a record. -/
structure IsRecordText (text : List Char) (record : ReplayRecord) : Prop where
  opens : text.head? = some '{'
  oneLine : '\n' ∉ text
  decodes : Json.decode text = .ok record

/-- What a line is when it is passed over or read. -/
def IsReadable (line : List Char) : Prop :=
  isBlankText line = true ∨ ∃ record : ReplayRecord, Json.decode line = .ok record

/-- The first line that is neither blank nor a record, and why it is none. -/
structure FirstUnreadable (lines : List (List Char)) (index : Nat) (line : List Char)
    (fault : Fault) : Prop where
  found : lines[index]? = some line
  notBlank : isBlankText line = false
  refused : (Json.decode line : Except Fault ReplayRecord) = .error fault
  first : ∀ earlier < index, ∀ other, lines[earlier]? = some other → IsReadable other

theorem FirstUnreadable.cons {lines : List (List Char)} {index : Nat} {line : List Char}
    {fault : Fault} (hfirst : FirstUnreadable lines index line fault) {before : List Char}
    (hbefore : IsReadable before) :
    FirstUnreadable (before :: lines) (index + 1) line fault where
  found := hfirst.found
  notBlank := hfirst.notBlank
  refused := hfirst.refused
  first earlier hlt other hother := by
    cases earlier with
    | zero =>
        cases hother
        exact hbefore
    | succ earlier => exact hfirst.first earlier (Nat.lt_of_succ_lt_succ hlt) other hother

theorem FirstUnreadable.le {lines : List (List Char)} {index other : Nat}
    {line otherLine : List Char} {fault otherFault : Fault}
    (hfirst : FirstUnreadable lines index line fault)
    (hother : FirstUnreadable lines other otherLine otherFault) : index ≤ other := by
  refine Nat.le_of_not_lt fun hlt => ?_
  rcases hfirst.first other hlt otherLine hother.found with hblank | ⟨record, hrecord⟩
  · exact absurd (hblank.symm.trans hother.notBlank) (by decide)
  · cases hother.refused.symm.trans hrecord

/-! ### Lines with their numbers -/

/-- The records of lines that are numbered from some number on. -/
def parseFrom (number : Nat) (lines : List (List Char)) : Except Error (List ReplayRecord) :=
  ((lines.zipIdx number).filterMap fun (line, number) =>
    if isBlankText line then none else some (number, line)).mapM fun (number, line) =>
      parseLine number line

theorem parse_eq_parseFrom {text : String} (hlines : (trimStart text.toList).head? ≠ some '[') :
    parse text = parseFrom 1 (lines text.toList) :=
  if_neg hlines

section Cons

variable {line : List Char} (number : Nat) (lines : List (List Char))

theorem parseFrom_of_blank (hblank : isBlankText line = true) :
    parseFrom number (line :: lines) = parseFrom (number + 1) lines := by
  simp [parseFrom, hblank]

theorem parseFrom_of_record (hblank : isBlankText line = false) {record : ReplayRecord}
    (hrecord : Json.decode line = .ok record) :
    parseFrom number (line :: lines) = (parseFrom (number + 1) lines).map (record :: ·) := by
  simp only [parseFrom, List.zipIdx_cons, List.filterMap_cons, hblank, Bool.false_eq_true, if_false,
    List.mapM_cons, parseLine, hrecord]
  rfl

theorem parseFrom_of_fault (hblank : isBlankText line = false) {fault : Fault}
    (hfault : (Json.decode line : Except Fault ReplayRecord) = .error fault) :
    parseFrom number (line :: lines) = .error (.serialization
      s!"Invalid replay record on line {number}: {fault.message}") := by
  simp only [parseFrom, List.zipIdx_cons, List.filterMap_cons, hblank, Bool.false_eq_true, if_false,
    List.mapM_cons, parseLine, hfault]
  rfl

end Cons

theorem parseFrom_eq_ok {number : Nat} {lines : List (List Char)} {records : List ReplayRecord}
    (hrecords : List.Forall₂ (fun line record => Json.decode line = .ok record)
      (lines.filter fun line => !isBlankText line) records) :
    parseFrom number lines = .ok records := by
  induction lines generalizing number records with
  | nil =>
      cases hrecords
      rfl
  | cons line lines ih =>
      cases hblank : isBlankText line with
      | true =>
          rw [List.filter_cons_of_neg (by simp [hblank])] at hrecords
          rw [parseFrom_of_blank number lines hblank, ih hrecords]
      | false =>
          rw [List.filter_cons_of_pos (by simp [hblank])] at hrecords
          cases hrecords with
          | cons hrecord hrest =>
              rw [parseFrom_of_record number lines hblank hrecord, ih hrest]
              rfl

/-- Of the lines that can be read, each goes on with the next; the first other one gives the
error. -/
theorem parseFrom_cases (number : Nat) (lines : List (List Char)) :
    ((∃ records, parseFrom number lines = .ok records) ∧ ∀ line ∈ lines, IsReadable line) ∨
      ∃ index line fault, FirstUnreadable lines index line fault ∧
        parseFrom number lines = .error (.serialization
          s!"Invalid replay record on line {index + number}: {fault.message}") := by
  induction lines generalizing number with
  | nil => exact .inl ⟨⟨[], rfl⟩, by simp⟩
  | cons line lines ih =>
      have hnumber (index : Nat) : index + 1 + number = index + (number + 1) := by omega
      cases hblank : isBlankText line with
      | true =>
          rw [parseFrom_of_blank number lines hblank]
          rcases ih (number + 1) with ⟨hrecords, hreadable⟩ | ⟨index, found, fault, hfirst, hfailed⟩
          · exact .inl ⟨hrecords, List.forall_mem_cons.mpr ⟨.inl hblank, hreadable⟩⟩
          · refine .inr ⟨index + 1, found, fault, hfirst.cons (.inl hblank), ?_⟩
            rw [hnumber, hfailed]
      | false =>
          cases hdecode : (Json.decode line : Except Fault ReplayRecord) with
          | error fault =>
              refine .inr ⟨0, line, fault, ⟨rfl, hblank, hdecode, by simp⟩, ?_⟩
              rw [parseFrom_of_fault number lines hblank hdecode, Nat.zero_add]
          | ok record =>
              rw [parseFrom_of_record number lines hblank hdecode]
              rcases ih (number + 1) with
                ⟨⟨records, hrecords⟩, hreadable⟩ | ⟨index, found, fault, hfirst, hfailed⟩
              · refine .inl ⟨⟨record :: records, by rw [hrecords]; rfl⟩, ?_⟩
                exact List.forall_mem_cons.mpr ⟨.inr ⟨record, hdecode⟩, hreadable⟩
              · refine .inr ⟨index + 1, found, fault, hfirst.cons (.inr ⟨record, hdecode⟩), ?_⟩
                rw [hnumber, hfailed]
                rfl

/-! ### The formats -/

section Formats

variable {texts : List (List Char)} {records : List ReplayRecord}
  (htexts : List.Forall₂ IsRecordText texts records)
include htexts

theorem opens_of_mem : ∀ text ∈ texts, text.head? = some '{' := by
  have hboth : List.Forall₂ (fun text record => text.head? = some '{' ∧ IsRecordText text record)
      texts records := htexts.imp fun _ _ hrecord => ⟨hrecord.opens, hrecord⟩
  exact ((List.forall₂_and_left _ _).mp hboth).1

theorem decode_lines {lines : List (List Char)} (hlines : List.Forall₂ IsLineOf lines texts) :
    List.Forall₂ (fun line record => Json.decode line = .ok record) lines records := by
  induction hlines generalizing records with
  | nil =>
      cases htexts
      exact .nil
  | cons hline _ ih =>
      cases htexts with
      | cons hrecord hrest =>
          exact .cons (Json.decode_of_isLineOf hrecord.opens hrecord.decodes hline) (ih hrest)

theorem parse_array {blanks gap : List Char} (hblanks : isBlankText blanks = true)
    (hgap : Json.IsGap gap) :
    parse (.ofList (blanks ++ '[' :: (List.intercalate (',' :: gap) texts ++ [']']))) =
      .ok records := by
  have hdecode := Json.decode_array hgap (htexts.imp fun _ _ hrecord =>
    ⟨hrecord.opens, hrecord.decodes⟩)
  rw [parse, String.toList_ofList, trimStart_append_of_blank hblanks,
    trimStart_cons_of_not_blank (by decide)]
  dsimp only
  rw [if_pos List.head?_cons, hdecode]

theorem parse_page {page : List Char} (hpage : Lists texts page) :
    parse (.ofList page) = .ok records := by
  have hopens := opens_of_mem htexts
  have hhead : (trimStart page).head? ≠ some '[' := fun hbracket =>
    absurd (hpage.head?_trimStart (by decide) hopens _ hbracket) (by decide)
  have hblank : ∀ text ∈ texts, isBlankText text = false := by
    intro text hmem
    obtain ⟨cs, rfl⟩ := List.head?_eq_some_iff.mp (hopens text hmem)
    rfl
  rw [parse_eq_parseFrom (by rwa [String.toList_ofList]), String.toList_ofList]
  exact parseFrom_eq_ok (decode_lines htexts (hpage.forall₂_lines hblank))

end Formats

/-- An array of records and lines of their own are read as the same records, and a text of lines
cannot be read exactly if there is a line that is neither blank nor a record; the error names the
first such line by its number among all lines. -/
theorem parse_agrees_between_formats {texts : List (List Char)} {records : List ReplayRecord}
    (htexts : List.Forall₂ IsRecordText texts records) {blanks gap page : List Char}
    (hblanks : isBlankText blanks = true) (hgap : Json.IsGap gap) (hpage : Lists texts page)
    {text : String} (hlines : (trimStart text.toList).head? ≠ some '[') :
    parse (.ofList (blanks ++ '[' :: (List.intercalate (',' :: gap) texts ++ [']']))) =
        .ok records ∧
      parse (.ofList page) = .ok records ∧
      ((∃ error, parse text = .error error) ↔
        ∃ line ∈ lines text.toList, isBlankText line = false ∧
          ∀ record : ReplayRecord, Json.decode line ≠ .ok record) ∧
      ∀ error, parse text = .error error → ∃ index line fault,
        FirstUnreadable (lines text.toList) index line fault ∧
          error = .serialization
            s!"Invalid replay record on line {index + 1}: {fault.message}" := by
  refine ⟨parse_array htexts hblanks hgap, parse_page htexts hpage, ?_⟩
  rw [parse_eq_parseFrom hlines]
  rcases parseFrom_cases 1 (lines text.toList) with
    ⟨⟨read, hread⟩, hreadable⟩ | ⟨index, line, fault, hfirst, hfailed⟩
  · rw [hread]
    refine ⟨⟨?_, ?_⟩, ?_⟩
    · rintro ⟨error, ⟨⟩⟩
    · rintro ⟨line, hmem, hblank, hnone⟩
      rcases hreadable line hmem with hskipped | ⟨record, hrecord⟩
      · exact absurd (hskipped.symm.trans hblank) (by decide)
      · exact absurd hrecord (hnone record)
    · rintro error ⟨⟩
  · rw [hfailed]
    refine ⟨⟨fun _ => ⟨line, List.mem_of_getElem? hfirst.found, hfirst.notBlank, ?_⟩,
      fun _ => ⟨_, rfl⟩⟩, ?_⟩
    · intro record hrecord
      cases hfirst.refused.symm.trans hrecord
    · rintro error ⟨⟩
      exact ⟨index, line, fault, hfirst, rfl⟩

/-- Two records with brackets, commas, quotes and line feeds in the names of their players, and a
text of which the third line is the first one that holds no record. -/
theorem parse_agrees_between_formats_of_odd_names :
    let text (hand : UInt32) : List Char := Json.line (toData ({
      decision := { player := "],\n[\"\\", hand, street := .preflop }
      action := { action := .fold } } : ReplayRecord))
    let first := text 1 ++ [' ', '\r']
    let array := "\u00a0\n".toList ++ '[' :: (first ++ ',' :: ' ' :: text 2 ++ [']'])
    let page := " \t".toList ++ ['\r', '\n'] ++ (first ++ ['\n'] ++
      ("\u2003".toList ++ ['\n'] ++ text 2))
    let broken := text 1 ++ "\n \n[1]\nnull".toList
    ∃ records, parse (.ofList array) = .ok records ∧ parse (.ofList page) = .ok records ∧
      records.map (fun record => record.decision.hand) = [1, 2] ∧
      ∃ fault, FirstUnreadable (lines broken) 2 "[1]".toList fault ∧
        parse (.ofList broken) = .error (.serialization
          s!"Invalid replay record on line 3: {fault.message}") := by
  intro text first array page broken
  obtain ⟨one, hone, honeHand⟩ : ∃ record : ReplayRecord, Json.decode first = .ok record ∧
      record.decision.hand = 1 := exists_of_toOption_map (by decide +kernel)
  obtain ⟨two, htwo, htwoHand⟩ : ∃ record : ReplayRecord, Json.decode (text 2) = .ok record ∧
      record.decision.hand = 2 := exists_of_toOption_map (by decide +kernel)
  have hfirstText : IsRecordText first one := ⟨by decide +kernel, by decide +kernel, hone⟩
  have hsecondText : IsRecordText (text 2) two := ⟨by decide +kernel, by decide +kernel, htwo⟩
  have hpage : Lists [first, text 2] page :=
    .blank (by decide) (by decide) _ (by decide) (.text hfirstText.oneLine _ (by decide)
      (.blank (by decide) (by decide) _ (by decide) (.lastText hsecondText.oneLine)))
  have hbroken : (trimStart (String.ofList broken).toList).head? ≠ some '[' := by
    rw [String.toList_ofList]
    decide +kernel
  obtain ⟨harray, hread, hfails, hnumber⟩ := parse_agrees_between_formats
    (.cons hfirstText (.cons hsecondText .nil))
    (show isBlankText "\u00a0\n".toList = true by decide)
    (show Json.IsGap [' '] from List.forall_mem_singleton.mpr (by decide)) hpage hbroken
  rw [String.toList_ofList] at hfails hnumber
  obtain ⟨again, hagain, -⟩ : ∃ record : ReplayRecord, Json.decode (text 1) = .ok record ∧
      record.decision.hand = 1 := exists_of_toOption_map (by decide +kernel)
  obtain ⟨fault, hfault⟩ : ∃ fault,
      (Json.decode "[1]".toList : Except Fault ReplayRecord) = .error fault :=
    exists_of_toOption_isNone (by decide +kernel)
  have hlines : lines broken = [text 1, [' '], "[1]".toList, "null".toList] := by decide +kernel
  have hfirst : FirstUnreadable (lines broken) 2 "[1]".toList fault := by
    rw [hlines]
    refine ⟨rfl, by decide, hfault, fun earlier hlt other hother => ?_⟩
    obtain rfl | rfl : earlier = 0 ∨ earlier = 1 := by omega
    · cases hother
      exact .inr ⟨again, hagain⟩
    · cases hother
      exact .inl (by decide)
  obtain ⟨error, herror⟩ := hfails.mpr ⟨"[1]".toList, List.mem_of_getElem? hfirst.found,
    hfirst.notBlank, fun record hrecord => by cases hfault.symm.trans hrecord⟩
  obtain ⟨index, line, found, hfound, rfl⟩ := hnumber error herror
  obtain rfl : index = 2 := Nat.le_antisymm (hfound.le hfirst) (hfirst.le hfound)
  obtain rfl : line = "[1]".toList := Option.some.inj (hfound.found.symm.trans hfirst.found)
  obtain rfl : found = fault := Except.error.inj (hfound.refused.symm.trans hfirst.refused)
  have hwritten : array = "\u00a0\n".toList ++
      '[' :: (List.intercalate (',' :: [' ']) [first, text 2] ++ [']']) := by
    simp [array, List.intercalate_cons_cons]
  rw [← hwritten] at harray
  exact ⟨_, harray, hread, by simp [honeHand, htwoHand], _, hfirst, herror⟩

end Replay

end PokerCoach
