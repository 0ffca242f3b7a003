import PokerCoach.Proofs.Json.Extent
import PokerCoach.Data.Value
import PokerCoach.Data.Decode

/-!
# Values that keep their trees

A value is kept by its tree if the tree can be printed and is read as that value again, in whichever
dialect. Lists, maps and options of kept values are kept.
-/

namespace PokerCoach.Data

open Std Json

structure Kept {α : Type} [ToData α] [OfData α] (a : α) : Prop where
  legible : Legible (toData a)
  reads (dialect : Dialect) : ofData dialect (toData a) = .ok a

variable {α : Type} [ToData α] [OfData α]

/-! ### Single values -/

theorem kept_bool (b : Bool) : Kept b where
  legible := .bool b
  reads _ := rfl

theorem kept_string (s : String) : Kept s where
  legible := .text s
  reads _ := rfl

theorem ofDataBelow_of_lt {bound n : Nat} (hlt : n < bound) :
    ofDataBelow bound (.integer n) = .ok n :=
  if_pos hlt

/-- Not every finite double is read of its text again, since reading it takes several roundings. -/
theorem kept_float {x : Float} (hread : Json.read (decimalText x) = .ok (.decimal x)) :
    Kept x where
  legible := .decimal x (reads_decimalText hread)
  reads _ := rfl

theorem kept_uint8 (n : UInt8) : Kept n where
  legible := .integer _ (Int.le_trans (by decide) (Int.natCast_nonneg _))
    (Int.ofNat_lt.mpr (Nat.lt_trans n.toNat_lt (by decide)))
  reads dialect := by
    have hread : ofData dialect (toData n) = (ofDataBelow UInt8.size (.integer n.toNat)).map
      UInt8.ofNat := rfl
    rw [hread, ofDataBelow_of_lt n.toNat_lt]
    exact congrArg Except.ok n.ofNat_toNat

theorem kept_uint32 (n : UInt32) : Kept n where
  legible := .integer _ (Int.le_trans (by decide) (Int.natCast_nonneg _))
    (Int.ofNat_lt.mpr (Nat.lt_trans n.toNat_lt (by decide)))
  reads dialect := by
    have hread : ofData dialect (toData n) = (ofDataBelow UInt32.size (.integer n.toNat)).map
      UInt32.ofNat := rfl
    rw [hread, ofDataBelow_of_lt n.toNat_lt]
    exact congrArg Except.ok n.ofNat_toNat

theorem kept_none : Kept (none : Option α) where
  legible := .null
  reads _ := rfl

omit [ToData α] in
theorem ofData_option (dialect : Dialect) {v : Value} (hne : v ≠ .null) :
    (ofData dialect v : Except Fault (Option α)) = (ofData dialect v).map some := by
  cases v <;> first | exact absurd rfl hne | rfl

/-- Null stands for no value, so that no value may have it as its tree. -/
theorem kept_some {a : α} (hkept : Kept a) (hne : toData a ≠ .null) : Kept (some a) where
  legible := hkept.legible
  reads dialect := by
    change (ofData dialect (toData a) : Except Fault (Option α)) = .ok (some a)
    rw [ofData_option dialect hne, hkept.reads]
    rfl

/-! ### Lists -/

/-- What is read of each item is what was written. -/
theorem mapM_map_eq_ok {β γ ε : Type} {write : β → γ} {read : γ → Except ε β} {items : List β}
    (hread : ∀ b ∈ items, read (write b) = .ok b) : (items.map write).mapM read = .ok items := by
  induction items with
  | nil => rfl
  | cons b items ih =>
      rw [List.map_cons, List.mapM_cons, hread b List.mem_cons_self,
        ih fun c hc => hread c (List.mem_cons_of_mem b hc)]
      rfl

theorem kept_list {items : List α} (hkept : ∀ a ∈ items, Kept a) : Kept items where
  legible := .list _ fun v hv => by
    obtain ⟨a, ha, rfl⟩ := List.mem_map.mp hv
    exact (hkept a ha).legible
  reads dialect := mapM_map_eq_ok fun a ha => (hkept a ha).reads dialect

/-! ### Maps -/

theorem mapOfEntries_toList {κ β : Type} [Ord κ] [TransOrd κ] [LawfulEqOrd κ] [BEq κ]
    [LawfulBEq κ] [LawfulBEqOrd κ] (map : ExtTreeMap κ β) : mapOfEntries map.toList = map := by
  have hinserted : mapOfEntries map.toList = (∅ : ExtTreeMap κ β).insertMany map.toList :=
    ExtTreeMap.insertMany_list_eq_foldl.symm
  rw [hinserted]
  refine ExtTreeMap.ext_getElem? fun key => ?_
  cases hkey : map[key]? with
  | some b =>
      exact ExtTreeMap.getElem?_insertMany_list_of_mem ReflCmp.compare_self
        ExtTreeMap.distinct_keys_toList (ExtTreeMap.mem_toList_iff_getElem?_eq_some.mpr hkey)
  | none =>
      rw [ExtTreeMap.getElem?_insertMany_list_of_contains_eq_false, ExtTreeMap.getElem?_empty]
      rw [ExtTreeMap.map_fst_toList_eq_keys, Bool.eq_false_iff, ne_eq, List.contains_iff_mem,
        ExtTreeMap.mem_keys, ← ExtTreeMap.contains_iff_mem,
        ExtTreeMap.contains_eq_isSome_getElem?, hkey]
      exact Bool.false_ne_true

theorem legible_ofFields {fields : List (String × Value)}
    (hlegible : ∀ field ∈ fields, Legible field.2) : Legible (.ofFields fields) := by
  refine .record _ (fun field hfield => ?_) (fun field hfield => ?_)
  · obtain ⟨_, _, rfl⟩ := List.mem_map.mp hfield
    rfl
  · obtain ⟨named, hnamed, rfl⟩ := List.mem_map.mp hfield
    exact hlegible named hnamed

/-- The entries of a map, under names that are read as the keys. -/
theorem legible_entries {κ : Type} (name : κ → String) {entries : List (κ × α)}
    (hkept : ∀ entry ∈ entries, Kept entry.2) :
    Legible (.ofFields (entries.map fun (key, a) => (name key, toData a))) := by
  refine legible_ofFields fun field hfield => ?_
  obtain ⟨entry, hentry, rfl⟩ := List.mem_map.mp hfield
  exact (hkept entry hentry).legible

omit [ToData α] in
theorem ofData_stringMap (dialect : Dialect) (fields : List (FieldName × Value)) :
    (ofData dialect (.record fields) : Except Fault (ExtTreeMap String α)) =
      (fields.mapM (m := Except Fault) fun (key, v) => do
        pure (key.text, ← ofData dialect v)).map mapOfEntries := rfl

theorem kept_stringMap {map : ExtTreeMap String α} (hkept : ∀ entry ∈ map.toList, Kept entry.2) :
    Kept map where
  legible := legible_entries id hkept
  reads dialect := by
    change ofData dialect (.record _) = _
    rw [ofData_stringMap, List.map_map, mapM_map_eq_ok]
    · exact congrArg Except.ok (mapOfEntries_toList map)
    · intro entry hentry
      simp only [Function.comp, (hkept entry hentry).reads dialect]
      rfl

theorem ofKey?_toString (n : UInt32) : ofKey? ⟨toString n.toNat, true⟩ = some n := by
  have hdigits : (toString n.toNat).toList = Nat.toDigits 10 n.toNat := Nat.toList_repr
  have hall : (Nat.toDigits 10 n.toNat).all Char.isDigit = true :=
    List.all_eq_true.mpr fun _ => Decimal.isDigit_toDigits
  have hhead (hzero : (Nat.toDigits 10 n.toNat).head? = some '0') :
      (Nat.toDigits 10 n.toNat).length = 1 := Decimal.length_eq_one_of_head?_toDigits hzero
  have hlt : n.toNat < UInt32.size := n.toNat_lt
  simp only [ofKey?, hdigits, hall, Decimal.digitsValue_toDigits, hlt]
  rw [if_neg]
  · simp
  · simpa using hhead

omit [ToData α] in
theorem ofData_numberMap (dialect : Dialect) (fields : List (FieldName × Value)) :
    (ofData dialect (.record fields) : Except Fault (ExtTreeMap UInt32 α)) =
      (fields.mapM (m := Except Fault) fun (key, v) =>
        match ofKey? key with
        | some n => do pure (n, ← ofData dialect v)
        | none => .error (.unknownName key.text)).map mapOfEntries := rfl

theorem kept_numberMap {map : ExtTreeMap UInt32 α} (hkept : ∀ entry ∈ map.toList, Kept entry.2) :
    Kept map where
  legible := legible_entries (fun key => toString key.toNat) hkept
  reads dialect := by
    change ofData dialect (.record _) = _
    rw [ofData_numberMap, List.map_map, mapM_map_eq_ok]
    · exact congrArg Except.ok (mapOfEntries_toList map)
    · intro entry hentry
      simp only [Function.comp, ofKey?_toString, (hkept entry hentry).reads dialect]
      rfl

/-! ### Records -/

/-- A record of exactly the fields that are looked for, in their order. -/
theorem fields_ofNames (names : List String) (dialect : Dialect)
    {entries : List (FieldName × Value)}
    (hnames : entries.map (fun (name, _) => name.text) = names)
    (hdistinct : repeated? names = none) :
    fields names dialect (.record entries) =
      .ok { dialect, found := entries.map fun (name, v) => (name.text, v) } := by
  have hall : ∀ entry ∈ entries, names.contains entry.1.text = true := by
    intro entry hentry
    rw [← hnames]
    simpa using ⟨entry.1, ⟨entry.2, hentry⟩, rfl⟩
  have hknown : entries.partition (fun (name, _) => names.contains name.text) = (entries, []) := by
    rw [List.partition_eq_filter_filter, List.filter_eq_self.mpr hall, List.filter_eq_nil_iff.mpr]
    simpa using hall
  have hfound : (entries.map fun (name, v) => (name.text, v)).map Prod.fst = names := by
    rw [List.map_map, ← hnames]
    rfl
  rw [fields, hknown]
  simp only [hfound, hdistinct]
  rfl

theorem Fields.required_kept {fs : Fields} {name : String} {a : α} (hkept : Kept a)
    (hfound : fs.found.lookup name = some (toData a)) : fs.required name = .ok a := by
  rw [Fields.required, hfound]
  exact hkept.reads fs.dialect

theorem Fields.optional_kept {fs : Fields} {name : String} {a : Option α} (hkept : Kept a)
    (hfound : fs.found.lookup name = some (toData a)) : fs.optional name = .ok a := by
  rw [Fields.optional, hfound]
  exact hkept.reads fs.dialect

theorem Fields.defaulted_kept {fs : Fields} {name : String} {a default : α} (hkept : Kept a)
    (hfound : fs.found.lookup name = some (toData a)) : fs.defaulted name default = .ok a := by
  rw [Fields.defaulted, hfound]
  exact hkept.reads fs.dialect

end PokerCoach.Data
