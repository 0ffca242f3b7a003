import PokerCoach.Store.Directory
import PokerCoach.Proofs.Files.Place
import PokerCoach.Proofs.Store.FileName

/-!
# Where the records of players lie

The two files of a player have harmless names, so that their paths lead straight into the directory
of the store. As no two of these names are the same, no two of the paths lead to one file.
-/

namespace PokerCoach

open FileTree

namespace FileName

/-- An ASCII letter or digit, or one of three marks. -/
def IsHarmless (c : Char) : Prop :=
  c.isAlphanum = true ∨ c = '-' ∨ c = '_' ∨ c = '%'

theorem not_isHarmless_slash : ¬ IsHarmless '/' := by
  unfold IsHarmless
  decide

theorem isAlphanum_hexDigitUpper (n : Nat) (hn : n < 16) :
    (Text.hexDigitUpper n).isAlphanum = true := by
  revert n
  decide

theorem isAlphanum_iff (c : Char) : c.isAlphanum = true ↔
    ((65 ≤ c.toNat ∧ c.toNat ≤ 90) ∨ (97 ≤ c.toNat ∧ c.toNat ≤ 122)) ∨
      (48 ≤ c.toNat ∧ c.toNat ≤ 57) := by
  have hranges : c.isAlphanum =
      (decide (c.val ≥ 65 ∧ c.val ≤ 90) || (decide (c.val ≥ 97) && decide (c.val ≤ 122)) ||
        (decide (c.val ≥ 48) && decide (c.val ≤ 57))) := rfl
  simp only [hranges, Bool.or_eq_true, Bool.and_eq_true, decide_eq_true_eq, ge_iff_le,
    UInt32.le_iff_toNat_le]
  rfl

theorem isHarmless_of_isPlain {byte : UInt8} (hplain : isPlain byte = true) :
    IsHarmless (Char.ofNat byte.toNat) := by
  simp only [isPlain, Bool.or_eq_true, Bool.and_eq_true, decide_eq_true_eq,
    UInt8.le_iff_toNat_le] at hplain
  simp only [IsHarmless, isAlphanum_iff, toNat_ofNat_byte]
  rcases hplain with (((hdigit | hupper) | hlower) | rfl) | rfl
  · exact .inl (.inr hdigit)
  · exact .inl (.inl (.inl hupper))
  · exact .inl (.inl (.inr hlower))
  · exact .inr (.inl rfl)
  · exact .inr (.inr (.inl rfl))

theorem isHarmless_of_mem_encodeByte {byte : UInt8} {c : Char} (hmem : c ∈ encodeByte byte) :
    IsHarmless c := by
  unfold encodeByte at hmem
  split at hmem
  · next hplain =>
      rw [List.mem_singleton] at hmem
      subst hmem
      exact isHarmless_of_isPlain hplain
  · have hbyte := byte.toNat_lt
    simp only [List.mem_cons, List.not_mem_nil, or_false] at hmem
    rcases hmem with rfl | rfl | rfl
    · exact .inr (.inr (.inr rfl))
    · exact .inl (isAlphanum_hexDigitUpper _ (by omega))
    · exact .inl (isAlphanum_hexDigitUpper _ (Nat.mod_lt _ (by omega)))

theorem stem_ne_nil (player : String) : stem player ≠ [] := by
  rw [stem_eq]
  split
  · exact List.cons_ne_nil _ _
  · assumption

theorem isHarmless_of_mem_stem {player : String} {c : Char} (hmem : c ∈ stem player) :
    IsHarmless c := by
  rw [stem_eq] at hmem
  split at hmem
  · rw [List.mem_singleton] at hmem
    exact .inr (.inr (.inr hmem))
  · obtain ⟨byte, -, hbyte⟩ := List.mem_flatMap.mp hmem
    exact isHarmless_of_mem_encodeByte hbyte

theorem slash_not_mem_stem (player : String) : '/' ∉ stem player :=
  fun hmem => not_isHarmless_slash (isHarmless_of_mem_stem hmem)

/-- A name of more than two characters and without a slash is one that a file can have. -/
theorem namesFile_of_length {cs : List Char} (hslash : '/' ∉ cs) (hlength : 2 < cs.length) :
    NamesFile (String.ofList cs) := by
  have hne {name : String} (hshort : name.toList.length ≤ 2) : String.ofList cs ≠ name := by
    rintro rfl
    rw [String.toList_ofList] at hshort
    omega
  exact ⟨by rwa [String.toList_ofList], hne (by decide), hne (by decide), hne (by decide)⟩

theorem namesFile_record (player : String) : NamesFile (record player) := by
  apply namesFile_of_length
  · simpa using slash_not_mem_stem player
  · simp

theorem namesFile_temporary (player : String) : NamesFile (temporary player) := by
  apply namesFile_of_length
  · simpa using slash_not_mem_stem player
  · simp

theorem temporary_injective : Function.Injective temporary := by
  intro first second hsame
  have hchars := (List.cons.inj (String.ofList_injective hsame)).2
  exact stem_injective (List.append_cancel_right hchars)

theorem isRecord_temporary (player : String) : isRecord (temporary player) = false := by
  simp [isRecord, temporary]

end FileName

namespace DirectoryStore

variable (store : DirectoryStore)

def recordPath (player : String) : String :=
  joinPath store.path (FileName.record player)

def temporaryPath (player : String) : String :=
  joinPath store.path (FileName.temporary player)

variable {store}

theorem place_joinPath_inj {first second : String} (hfirst : NamesFile first)
    (hsecond : NamesFile second) :
    place (joinPath store.path first) = place (joinPath store.path second) ↔ first = second := by
  rw [hfirst.place_joinPath, hsecond.place_joinPath, List.append_cancel_left_eq,
    List.singleton_inj]

variable (store)

/-- Whatever the players are called: different players have different stems of file names, made of
at least one letter, digit, hyphen, underscore or percent sign. So the record files and the temporary
files of different players lie at different places, no temporary file lies where a record file does,
every path leads from the directory of the store to a name in it, and a listing looks at every
record file and at no temporary one. -/
theorem players_have_files_apart :
    (∀ first second, FileName.stem first = FileName.stem second → first = second) ∧
    (∀ player, FileName.stem player ≠ [] ∧
      ∀ c ∈ FileName.stem player, c.isAlphanum = true ∨ c = '-' ∨ c = '_' ∨ c = '%') ∧
    (∀ first second, first ≠ second →
      place (store.recordPath first) ≠ place (store.recordPath second) ∧
      place (store.temporaryPath first) ≠ place (store.temporaryPath second)) ∧
    (∀ first second, place (store.temporaryPath first) ≠ place (store.recordPath second)) ∧
    (∀ player, LeadsInto (store.recordPath player) store.path (FileName.record player) ∧
      LeadsInto (store.temporaryPath player) store.path (FileName.temporary player)) ∧
    ∀ player, FileName.isRecord (FileName.record player) = true ∧
      FileName.isRecord (FileName.temporary player) = false := by
  have hrecord := FileName.namesFile_record
  have htemporary := FileName.namesFile_temporary
  refine ⟨fun _ _ hsame => FileName.stem_injective hsame, fun player => ⟨?_, ?_⟩,
    fun first second hne => ⟨?_, ?_⟩, fun first second hsame => ?_, fun player => ⟨?_, ?_⟩,
    fun player => ⟨?_, ?_⟩⟩
  · exact FileName.stem_ne_nil player
  · intro c hmem
    exact FileName.isHarmless_of_mem_stem hmem
  · intro hsame
    have hnames := (place_joinPath_inj (hrecord first) (hrecord second)).mp hsame
    exact hne (FileName.record_injective hnames)
  · intro hsame
    have hnames := (place_joinPath_inj (htemporary first) (htemporary second)).mp hsame
    exact hne (FileName.temporary_injective hnames)
  · have hnames := (place_joinPath_inj (htemporary first) (hrecord second)).mp hsame
    exact FileName.record_ne_temporary second first hnames.symm
  · exact (hrecord player).leadsInto store.path
  · exact (htemporary player).leadsInto store.path
  · exact FileName.isRecord_record player
  · exact FileName.isRecord_temporary player

/-- No name and the sign that stands for it, and a name that would lead out of the directory. -/
theorem players_have_files_apart_of_odd_names :
    let store : DirectoryStore := { path := "players" }
    place (store.recordPath "") ≠ place (store.recordPath "%") ∧
      LeadsInto (store.recordPath "../etc/passwd") "players" "%2E%2E%2Fetc%2Fpasswd.json" := by
  intro store
  obtain ⟨-, -, hapart, -, hleads, -⟩ := store.players_have_files_apart
  have hname : FileName.record "../etc/passwd" = "%2E%2E%2Fetc%2Fpasswd.json" := by decide +kernel
  have hinside := (hleads "../etc/passwd").1
  rw [hname] at hinside
  exact ⟨(hapart "" "%" (by decide)).1, hinside⟩

end DirectoryStore

end PokerCoach
