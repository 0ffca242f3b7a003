import PokerCoach.Proofs.Json.Scalar

/-!
# Printed trees are read back

A tree of which every part has a reading is read back from its text, on one line as well as on a
page, and whatever follows that text is left alone. The blanks of a page are the only difference
between the two.
-/

namespace PokerCoach.Json

open Data

/-! ### Lists -/

theorem readItems_last {fuel : Nat} {cs rest tail : List Char} {v : Value}
    (hvalue : readValue fuel cs = .ok (v, rest)) (hend : skipSpace rest = ']' :: tail) :
    readItems (fuel + 1) cs = .ok ([v], tail) := by
  rw [readItems, hvalue]
  simp only [bind, Except.bind, hend]
  rfl

theorem readItems_more {fuel : Nat} {cs rest tail after : List Char} {v : Value}
    {items : List Value} (hvalue : readValue fuel cs = .ok (v, rest))
    (hcomma : skipSpace rest = ',' :: tail) (hitems : readItems fuel tail = .ok (items, after)) :
    readItems (fuel + 1) cs = .ok (v :: items, after) := by
  rw [readItems, hvalue]
  simp only [bind, Except.bind, hcomma, hitems]
  rfl

/-- Items that are read up to the end of their list, whatever follows it. -/
structure ReadsItems (text : List Char) (items : List Value) : Prop where
  starts (rest : List Char) : (skipSpace (text ++ rest)).head? ≠ some ']'
  reads (fuel : Nat) (rest : List Char) (hfuel : 2 * text.length + 2 ≤ fuel) :
    readItems fuel (text ++ ']' :: rest) = .ok (items, rest)

theorem Reads.head?_gap {text : List Char} {v : Value} (hreads : Reads text v) {gap : List Char}
    (hgap : IsGap gap) (rest : List Char) :
    (skipSpace (gap ++ (text ++ rest))).head? ≠ some ']' := by
  obtain ⟨c, cs, rfl, hspace, hc⟩ := hreads.starts
  rw [skipSpace_append hgap, List.cons_append, skipSpace_cons hspace]
  simpa using hc

section Items

variable {gap tail text more : List Char} {v : Value} {items : List Value} (hgap : IsGap gap)
  (htail : IsGap tail) (hv : Reads text v)
include hgap htail hv

theorem ReadsItems.single : ReadsItems (gap ++ (text ++ tail)) [v] where
  starts rest := by
    rw [List.append_assoc, List.append_assoc]
    exact hv.head?_gap hgap _
  reads fuel rest hfuel := by
    simp only [List.length_append] at hfuel
    obtain ⟨fuel, rfl⟩ := Nat.exists_eq_add_of_le' (Nat.le_trans (Nat.le_add_left 1 _) hfuel)
    rw [List.append_assoc, List.append_assoc]
    refine readItems_last (hv.readValue_gap hgap (by omega) ?_) ?_
    · exact endsNumber_append htail (endsNumber_cons (by decide) rest)
    · rw [skipSpace_append htail, skipSpace_cons (by decide)]

theorem ReadsItems.cons (hmore : ReadsItems more items) :
    ReadsItems (gap ++ (text ++ (tail ++ ',' :: more))) (v :: items) where
  starts rest := by
    rw [List.append_assoc, List.append_assoc]
    exact hv.head?_gap hgap _
  reads fuel rest hfuel := by
    simp only [List.length_append, List.length_cons] at hfuel
    obtain ⟨fuel, rfl⟩ := Nat.exists_eq_add_of_le' (Nat.le_trans (Nat.le_add_left 1 _) hfuel)
    rw [List.append_assoc, List.append_assoc, List.append_assoc, List.cons_append]
    refine readItems_more (hv.readValue_gap hgap (by omega) ?_) ?_
      (hmore.reads fuel rest (by omega))
    · exact endsNumber_append htail (endsNumber_cons (by decide) _)
    · rw [skipSpace_append htail, skipSpace_cons (by decide)]

end Items

/-- Items with a gap before each of them and one after the last. -/
theorem readsItems_intercalate {write : Value → List Char} {gap tail : List Char}
    (hgap : IsGap gap) (htail : IsGap tail) {items : List Value} (hne : items ≠ [])
    (hreads : ∀ v ∈ items, Reads (write v) v) :
    ReadsItems (List.intercalate [','] (items.map (gap ++ write ·)) ++ tail) items := by
  induction items with
  | nil => exact absurd rfl hne
  | cons v items ih =>
      obtain ⟨hv, hrest⟩ := List.forall_mem_cons.mp hreads
      cases items with
      | nil =>
          rw [List.map_cons, List.map_nil, List.intercalate_singleton, List.append_assoc]
          exact .single hgap htail hv
      | cons w items =>
          have hmore := ReadsItems.cons hgap isGap_nil hv (ih (List.cons_ne_nil _ _) hrest)
          simpa [List.intercalate_cons_cons] using hmore

theorem readValue_bracket (fuel : Nat) (cs : List Char) :
    readValue (fuel + 1) ('[' :: cs) =
      match skipSpace cs with
      | ']' :: rest => .ok (.list [], rest)
      | _ => (readItems fuel cs).map fun (items, rest) => (.list items, rest) := by
  rw [readValue, skipSpace_cons (by decide)]
  rfl

theorem readValue_list {fuel : Nat} {cs tail : List Char} {items : List Value}
    (hopen : (skipSpace cs).head? ≠ some ']') (hitems : readItems fuel cs = .ok (items, tail)) :
    readValue (fuel + 1) ('[' :: cs) = .ok (.list items, tail) := by
  rw [readValue_bracket]
  split
  · next heq => simp [heq] at hopen
  · rw [hitems]
    rfl

theorem reads_list_gap {gap : List Char} (hgap : IsGap gap) :
    Reads ('[' :: (gap ++ [']'])) (.list []) := by
  refine .of_cons (by decide) (by decide) fun fuel rest _ _ => ?_
  rw [readValue_bracket, List.append_assoc, skipSpace_append hgap]
  rfl

theorem reads_list_nil : Reads ['[', ']'] (.list []) :=
  reads_list_gap isGap_nil

/-- Items between brackets. -/
theorem ReadsItems.reads_list {text : List Char} {items : List Value}
    (hitems : ReadsItems text items) : Reads ('[' :: (text ++ [']'])) (.list items) := by
  refine .of_cons (by decide) (by decide) fun fuel rest hfuel _ => ?_
  rw [List.length_append] at hfuel
  rw [List.append_assoc]
  exact readValue_list (hitems.starts _) (hitems.reads fuel rest (by omega))

theorem reads_list {write : Value → List Char} {gap tail : List Char} (hgap : IsGap gap)
    (htail : IsGap tail) {items : List Value} (hne : items ≠ [])
    (hreads : ∀ v ∈ items, Reads (write v) v) :
    Reads ('[' :: List.intercalate [','] (items.map (gap ++ write ·)) ++ (tail ++ [']']))
      (.list items) := by
  rw [List.cons_append, ← List.append_assoc]
  exact (readsItems_intercalate hgap htail hne hreads).reads_list

/-! ### Records -/

/-- A field as it is written, with a gap between the colon and the value. -/
def fieldText (write : Value → List Char) (blank : List Char) (field : FieldName × Value) :
    List Char :=
  quote field.1.text ++ ':' :: (blank ++ write field.2)

theorem readFields_last {fuel : Nat} {cs value rest tail : List Char} {name : Option FieldName}
    {v : Value} (hname : readName cs = .ok (name, value))
    (hvalue : readValue fuel value = .ok (v, rest)) (hend : skipSpace rest = '}' :: tail) :
    readFields (fuel + 1) cs = .ok ([(name, v)], tail) := by
  rw [readFields, hname]
  simp only [bind, Except.bind, hvalue, hend]
  rfl

theorem readFields_more {fuel : Nat} {cs value rest tail after : List Char}
    {name : Option FieldName} {v : Value} {fields : List (Option FieldName × Value)}
    (hname : readName cs = .ok (name, value)) (hvalue : readValue fuel value = .ok (v, rest))
    (hcomma : skipSpace rest = ',' :: tail)
    (hfields : readFields fuel tail = .ok (fields, after)) :
    readFields (fuel + 1) cs = .ok ((name, v) :: fields, after) := by
  rw [readFields, hname]
  simp only [bind, Except.bind, hvalue, hcomma, hfields]
  rfl

/-- A field name that is read with the colon after it, whatever follows. -/
def ReadsName (text : List Char) (name : Option FieldName) : Prop :=
  ∀ rest, readName ('"' :: (text ++ rest)) = .ok (name, rest)

/-- Fields that are read up to the end of their record, whatever follows it. -/
structure ReadsFields (text : List Char) (fields : List (Option FieldName × Value)) : Prop where
  starts (rest : List Char) : (skipSpace (text ++ rest)).head? ≠ some '}'
  reads (fuel : Nat) (rest : List Char) (hfuel : 2 * text.length + 2 ≤ fuel) :
    readFields fuel (text ++ '}' :: rest) = .ok (fields, rest)

theorem readName_append {gap : List Char} (hgap : IsGap gap) (cs : List Char) :
    readName (gap ++ cs) = readName cs := by
  rw [readName, readName, skipSpace_append hgap]

section Fields

variable {before blank tail label text more : List Char} {name : Option FieldName} {v : Value}
  {fields : List (Option FieldName × Value)} (hbefore : IsGap before)
  (hname : ReadsName label name) (hblank : IsGap blank) (hv : Reads text v) (htail : IsGap tail)
include hbefore hname hblank hv htail

theorem ReadsFields.single :
    ReadsFields (before ++ '"' :: (label ++ (blank ++ (text ++ tail)))) [(name, v)] where
  starts rest := by
    rw [List.append_assoc, skipSpace_append hbefore, List.cons_append, skipSpace_cons (by decide)]
    simp
  reads fuel rest hfuel := by
    simp only [List.length_append, List.length_cons] at hfuel
    obtain ⟨fuel, rfl⟩ := Nat.exists_eq_add_of_le' (Nat.le_trans (Nat.le_add_left 1 _) hfuel)
    simp only [List.append_assoc, List.cons_append]
    refine readFields_last ((readName_append hbefore _).trans (hname _))
      (hv.readValue_gap hblank (by omega) ?_) ?_
    · exact endsNumber_append htail (endsNumber_cons (by decide) rest)
    · rw [skipSpace_append htail, skipSpace_cons (by decide)]

theorem ReadsFields.cons (hmore : ReadsFields more fields) :
    ReadsFields (before ++ '"' :: (label ++ (blank ++ (text ++ (tail ++ ',' :: more)))))
      ((name, v) :: fields) where
  starts rest := by
    rw [List.append_assoc, skipSpace_append hbefore, List.cons_append, skipSpace_cons (by decide)]
    simp
  reads fuel rest hfuel := by
    simp only [List.length_append, List.length_cons] at hfuel
    obtain ⟨fuel, rfl⟩ := Nat.exists_eq_add_of_le' (Nat.le_trans (Nat.le_add_left 1 _) hfuel)
    simp only [List.append_assoc, List.cons_append]
    refine readFields_more ((readName_append hbefore _).trans (hname _))
      (hv.readValue_gap hblank (by omega) ?_) ?_ (hmore.reads fuel rest (by omega))
    · exact endsNumber_append htail (endsNumber_cons (by decide) _)
    · rw [skipSpace_append htail, skipSpace_cons (by decide)]

end Fields

theorem readsName_quote (s : String) :
    ReadsName (s.toList.flatMap escape ++ ['"', ':']) (some ⟨s, true⟩) := by
  intro rest
  have hname := readName_quote isGap_nil s rest
  rw [quote_append, List.nil_append] at hname
  rwa [List.append_assoc]

theorem fieldText_eq (write : Value → List Char) (blank : List Char) (field : FieldName × Value) :
    fieldText write blank field =
      '"' :: (field.1.text.toList.flatMap escape ++ ['"', ':'] ++ (blank ++ write field.2)) := by
  simp [fieldText, quote]

/-- Fields with a gap before each of them and one after the last. -/
theorem readsFields_intercalate {write : Value → List Char} {gap blank tail : List Char}
    (hgap : IsGap gap) (hblank : IsGap blank) (htail : IsGap tail)
    {fields : List (FieldName × Value)} (hne : fields ≠ [])
    (hplain : ∀ field ∈ fields, field.1.plain = true)
    (hreads : ∀ field ∈ fields, Reads (write field.2) field.2) :
    ReadsFields (List.intercalate [','] (fields.map (gap ++ fieldText write blank ·)) ++ tail)
      (fields.map (Prod.map some id)) := by
  induction fields with
  | nil => exact absurd rfl hne
  | cons field fields ih =>
      obtain ⟨hplainField, hplainRest⟩ := List.forall_mem_cons.mp hplain
      obtain ⟨hv, hreadsRest⟩ := List.forall_mem_cons.mp hreads
      obtain ⟨⟨name, plain⟩, v⟩ := field
      obtain rfl : plain = true := hplainField
      cases fields with
      | nil =>
          have hlast := ReadsFields.single hgap (readsName_quote name) hblank hv htail
          simpa [fieldText_eq] using hlast
      | cons other fields =>
          have hmore := ReadsFields.cons hgap (readsName_quote name) hblank hv isGap_nil
            (ih (List.cons_ne_nil _ _) hplainRest hreadsRest)
          simpa [fieldText_eq, List.intercalate_cons_cons] using hmore

theorem mapM_map_some {α β : Type} {f : Option α × β → Option (α × β)}
    (hf : ∀ pair : α × β, f (pair.map some id) = some pair) (pairs : List (α × β)) :
    (pairs.map (Prod.map some id)).mapM f = some pairs := by
  induction pairs with
  | nil => rfl
  | cons pair rest ih => simp [List.mapM_cons, hf, ih]

theorem recordValue_map_some (fields : List (FieldName × Value)) :
    recordValue (fields.map (Prod.map some id)) = .record fields := by
  rw [recordValue, mapM_map_some fun _ => rfl]

theorem readValue_brace (fuel : Nat) (cs : List Char) :
    readValue (fuel + 1) ('{' :: cs) =
      match skipSpace cs with
      | '}' :: rest => .ok (.record [], rest)
      | _ => (readFields fuel cs).map fun (fields, rest) => (recordValue fields, rest) := by
  rw [readValue, skipSpace_cons (by decide)]
  rfl

theorem readValue_record {fuel : Nat} {cs tail : List Char}
    {fields : List (Option FieldName × Value)} (hopen : (skipSpace cs).head? ≠ some '}')
    (hfields : readFields fuel cs = .ok (fields, tail)) :
    readValue (fuel + 1) ('{' :: cs) = .ok (recordValue fields, tail) := by
  rw [readValue_brace]
  split
  · next heq => simp [heq] at hopen
  · rw [hfields]
    rfl

theorem reads_record_gap {gap : List Char} (hgap : IsGap gap) :
    Reads ('{' :: (gap ++ ['}'])) (.record []) := by
  refine .of_cons (by decide) (by decide) fun fuel rest _ _ => ?_
  rw [readValue_brace, List.append_assoc, skipSpace_append hgap]
  rfl

theorem reads_record_nil : Reads ['{', '}'] (.record []) :=
  reads_record_gap isGap_nil

/-- Fields between braces. -/
theorem ReadsFields.reads_record {text : List Char} {fields : List (Option FieldName × Value)}
    (hfields : ReadsFields text fields) : Reads ('{' :: (text ++ ['}'])) (recordValue fields) := by
  refine .of_cons (by decide) (by decide) fun fuel rest hfuel _ => ?_
  rw [List.length_append] at hfuel
  rw [List.append_assoc]
  exact readValue_record (hfields.starts _) (hfields.reads fuel rest (by omega))

theorem reads_record {write : Value → List Char} {gap blank tail : List Char} (hgap : IsGap gap)
    (hblank : IsGap blank) (htail : IsGap tail) {fields : List (FieldName × Value)}
    (hne : fields ≠ []) (hplain : ∀ field ∈ fields, field.1.plain = true)
    (hreads : ∀ field ∈ fields, Reads (write field.2) field.2) :
    Reads
      ('{' :: List.intercalate [','] (fields.map (gap ++ fieldText write blank ·)) ++
        (tail ++ ['}']))
      (.record fields) := by
  rw [List.cons_append, ← List.append_assoc, ← recordValue_map_some fields]
  exact (readsFields_intercalate hgap hblank htail hne hplain hreads).reads_record

/-! ### Trees -/

/-- A tree of which every part has a reading: it holds no mark of what could not be read, its whole
numbers fit a word of 64 bits, and its doubles have texts that are read as the same double. -/
inductive Legible : Value → Prop where
  | null : Legible .null
  | bool (b : Bool) : Legible (.bool b)
  | integer (n : Int) (hlow : -Nat.pow 2 63 ≤ n) (hhigh : n < Nat.pow 2 64) : Legible (.integer n)
  | decimal (x : Float) (hreads : Reads (decimalText x) (.decimal x)) : Legible (.decimal x)
  | text (s : String) : Legible (.text s)
  | list (items : List Value) (hitems : ∀ v ∈ items, Legible v) : Legible (.list items)
  | record (fields : List (FieldName × Value)) (hplain : ∀ field ∈ fields, field.1.plain = true)
      (hfields : ∀ field ∈ fields, Legible field.2) : Legible (.record fields)

theorem lineItems_eq_map (items : List Value) : lineItems items = items.map line := by
  induction items with
  | nil => rw [lineItems, List.map_nil]
  | cons v items ih => rw [lineItems, ih, List.map_cons]

theorem lineFields_eq_map (fields : List (FieldName × Value)) :
    lineFields fields = fields.map (fieldText line []) := by
  induction fields with
  | nil => rw [lineFields, List.map_nil]
  | cons field fields ih => rw [lineFields, ih, List.map_cons, fieldText, List.nil_append]

theorem pageItems_eq_map (depth : Nat) (items : List Value) :
    pageItems depth items = items.map (page depth) := by
  induction items with
  | nil => rw [pageItems, List.map_nil]
  | cons v items ih => rw [pageItems, ih, List.map_cons]

theorem pageFields_eq_map (depth : Nat) (fields : List (FieldName × Value)) :
    pageFields depth fields = fields.map (fieldText (page depth) [' ']) := by
  induction fields with
  | nil => rw [pageFields, List.map_nil]
  | cons field fields ih =>
      rw [pageFields, ih, List.map_cons, fieldText, List.singleton_append]

theorem reads_line {v : Value} (hlegible : Legible v) : Reads (line v) v := by
  induction hlegible with
  | null => rw [line]; exact reads_null
  | bool b => exact reads_bool b
  | integer n hlow hhigh => rw [line]; exact reads_integer hlow hhigh
  | decimal x hreads => rw [line]; exact hreads
  | text s => rw [line]; exact reads_quote s
  | list items _ ih =>
      rw [line, bracket, lineItems_eq_map]
      by_cases hne : items = []
      · rw [hne]
        exact reads_list_nil
      · exact reads_list isGap_nil isGap_nil hne ih
  | record fields hplain _ ih =>
      rw [line, bracket, lineFields_eq_map]
      by_cases hne : fields = []
      · rw [hne]
        exact reads_record_nil
      · exact reads_record isGap_nil isGap_nil isGap_nil hne hplain ih

theorem block_of_ne_nil (depth : Nat) (opening closing : Char) {texts : List (List Char)}
    (hne : texts ≠ []) :
    block depth opening closing texts =
      opening :: List.intercalate [','] (texts.map (indent (depth + 1) ++ ·))
        ++ (indent depth ++ [closing]) := by
  rw [block, if_neg (by simpa using hne), List.append_assoc]

theorem reads_page {v : Value} (hlegible : Legible v) (depth : Nat) : Reads (page depth v) v := by
  induction hlegible generalizing depth with
  | null => rw [page]; exact reads_null
  | bool b => rw [page]; exact reads_bool b
  | integer n hlow hhigh => rw [page, line]; exact reads_integer hlow hhigh
  | decimal x hreads => rw [page]; exact hreads
  | text s => rw [page]; exact reads_quote s
  | list items _ ih =>
      rw [page, pageItems_eq_map]
      by_cases hne : items = []
      · rw [hne]
        exact reads_list_nil
      · rw [block_of_ne_nil _ _ _ (by simpa using hne), List.map_map]
        exact reads_list (isGap_indent _) (isGap_indent _) hne fun v hv => ih v hv (depth + 1)
  | record fields hplain _ ih =>
      rw [page, pageFields_eq_map]
      by_cases hne : fields = []
      · rw [hne]
        exact reads_record_nil
      · rw [block_of_ne_nil _ _ _ (by simpa using hne), List.map_map]
        exact reads_record (isGap_indent _) (by simp [IsGap, isSpace]) (isGap_indent _) hne hplain
          fun field hfield => ih field hfield (depth + 1)

/-- What is printed on a page is read back. -/
theorem read_printPage {v : Value} (hlegible : Legible v) :
    read (printPage v).toList = .ok v := by
  rw [printPage, String.toList_ofList]
  exact (reads_page hlegible 0).read

end PokerCoach.Json
