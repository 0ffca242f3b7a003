import PokerCoach.Proofs.Progress.Kept
import PokerCoach.Proofs.Store.FileName
import PokerCoach.Store.Directory
import PokerCoach.Store.Memory
import Mathlib.Data.List.Nodup

/-!
# Files answer as memory does

A directory that admits file names of every length gives the answers of a store in memory, whatever
is asked of the two and in whatever order. What it holds are the printed records of the store in
memory, each in the file of its player, and no other files.
-/

namespace PokerCoach

open Std Time

/-! ### Calls -/

/-- What can be asked of a record store. -/
inductive StoreCall where
  | put (record : PlayerRecord)
  | get (player : String)
  | has (player : String)
  | delete (player : String)
  | list (limit : Nat)
  deriving DecidableEq

inductive StoreAnswer where
  | done (result : Except Error Unit)
  | found (result : Except Error (Option PlayerRecord))
  | known (result : Except Error Bool)
  | listed (result : Except Error (List PlayerRecord))
  deriving DecidableEq

namespace StoreCall

variable {σ : Type} [RecordStore σ]

def run (store : σ) : StoreCall → StoreAnswer × σ
  | .put record => (RecordStore.put store record).map .done id
  | .get player => (RecordStore.get store player).map .found id
  | .has player => (RecordStore.has store player).map .known id
  | .delete player => (RecordStore.delete store player).map .done id
  | .list limit => (RecordStore.list store limit).map .listed id

def answer (store : σ) (call : StoreCall) : StoreAnswer :=
  (call.run store).1

/-- A store after calls. -/
def after (store : σ) (calls : List StoreCall) : σ :=
  calls.foldl (fun store call => (call.run store).2) store

/-- The player whose record a call writes or removes. -/
def target? : StoreCall → Option String
  | .put record => some record.player
  | .delete player => some player
  | _ => none

/-- Every time in a record to be put is of a year with four digits. -/
def IsCommon : StoreCall → Prop
  | .put record => record.IsCommon
  | _ => True

instance : DecidablePred IsCommon
  | .put record => inferInstanceAs (Decidable record.IsCommon)
  | .get _ | .has _ | .delete _ | .list _ => .isTrue trivial

end StoreCall

/-! ### The latest records -/

theorem values_eq_map_toList {κ α : Type} [Ord κ] [TransOrd κ] (map : ExtTreeMap κ α) :
    map.values = map.toList.map Prod.snd := by
  obtain ⟨⟨tree⟩⟩ := map
  induction tree using Quotient.ind with
  | _ tree =>
      change tree.inner.values =
        (DTreeMap.Internal.Impl.Const.toList tree.inner).map Prod.snd
      rw [DTreeMap.Internal.Impl.values_eq_map_snd,
        DTreeMap.Internal.Impl.Const.toList_eq_toListModel_map, List.map_map]
      rfl

theorem Time.Instant.parts_injective : Function.Injective Instant.parts := by
  intro s t hparts
  simp only [Instant.parts, List.cons.injEq, Int.natCast_inj, and_true] at hparts
  cases s
  cases t
  simpa using hparts

theorem Time.Instant.le_antisymm {s t : Instant} (hst : s ≤ t) (hts : t ≤ s) : s = t :=
  Instant.parts_injective (List.le_antisymm hst hts)

/-- Whether a listing may show a record before another. -/
def mayPrecede (a b : PlayerRecord) : Bool :=
  decide (b.updatedAt ≤ a.updatedAt)

theorem pairwise_latest (records : List PlayerRecord) :
    (records.mergeSort mayPrecede).Pairwise fun a b => mayPrecede a b = true := by
  refine List.pairwise_mergeSort (fun a b c hab hbc => ?_) (fun a b => ?_) records
  · simp only [mayPrecede, decide_eq_true_eq] at hab hbc ⊢
    exact List.le_trans hbc hab
  · simp only [mayPrecede, Bool.or_eq_true, decide_eq_true_eq]
    exact List.le_total b.updatedAt.parts a.updatedAt.parts

/-- Where no two records were updated at once, a listing does not depend on the order in which it
finds them. -/
theorem latestRecords_of_perm (limit : Nat) {first second : List PlayerRecord}
    (hperm : first.Perm second) (hdistinct : (first.map PlayerRecord.updatedAt).Nodup) :
    latestRecords limit first = latestRecords limit second := by
  have hsorted : first.mergeSort mayPrecede = second.mergeSort mayPrecede := by
    refine List.Perm.eq_of_pairwise (fun a b ha hb hab hba => ?_) (pairwise_latest first)
      (pairwise_latest second)
      ((List.mergeSort_perm _ _).trans (hperm.trans (List.mergeSort_perm _ _).symm))
    simp only [mayPrecede, decide_eq_true_eq] at hab hba
    exact List.inj_on_of_nodup_map hdistinct (List.mem_mergeSort.mp ha)
      (hperm.mem_iff.mpr (List.mem_mergeSort.mp hb)) (Instant.le_antisymm hba hab)
  exact congrArg (List.take limit) hsorted

/-! ### Agreement -/

namespace DirectoryStore

theorem parse_print {record : PlayerRecord} (hcommon : record.IsCommon) :
    parse (print record) = .ok record := by
  have hkept := kept_record hcommon
  rw [parse, print, Json.decode, Json.read_printPage hkept.legible]
  simp only [bind, Except.bind, hkept.reads]

/-- An empty directory that admits file names of every length. -/
def unlimited (path : String) : DirectoryStore :=
  { path, nameLimit := none }

end DirectoryStore

/-- The files of a directory are the printed records of a store in memory. -/
structure Agrees (memory : MemoryStore) (directory : DirectoryStore) : Prop where
  unlimited : directory.nameLimit = none
  common (player : String) (record : PlayerRecord) (hfound : memory.find? player = some record) :
    record.IsCommon
  file (player : String) : directory.files[FileName.record player]? =
    (memory.find? player).map DirectoryStore.print
  named (name : String) (hname : name ∈ directory.files) : ∃ player, FileName.record player = name

namespace Agrees

theorem empty (path : String) : Agrees .empty (.unlimited path) where
  unlimited := rfl
  common player record hfound := by simp at hfound
  file player := by simp [DirectoryStore.unlimited]
  named name hname := by simp [DirectoryStore.unlimited] at hname

variable {memory : MemoryStore} {directory : DirectoryStore}

theorem put (hagrees : Agrees memory directory) {record : PlayerRecord}
    (hcommon : record.IsCommon) : Agrees (memory.insert record) (directory.insert record) where
  unlimited := hagrees.unlimited
  common player found hfound := by
    rw [MemoryStore.find?_insert] at hfound
    split at hfound
    · exact Option.some_inj.mp hfound ▸ hcommon
    · exact hagrees.common player found hfound
  file player := by
    have htemporary := (FileName.record_ne_temporary player record.player).symm
    simp only [DirectoryStore.insert, ExtTreeMap.getElem?_insert, ExtTreeMap.getElem?_erase,
      Std.compare_eq_iff_eq, FileName.record_inj, MemoryStore.find?_insert, if_neg htemporary,
      hagrees.file]
    split <;> rfl
  named name hname := by
    simp only [DirectoryStore.insert, ExtTreeMap.mem_insert, ExtTreeMap.mem_erase,
      Std.compare_eq_iff_eq] at hname
    rcases hname with hname | ⟨-, hname⟩
    · exact ⟨record.player, hname⟩
    · exact hagrees.named name hname

theorem delete (hagrees : Agrees memory directory) (player : String) :
    Agrees (memory.erase player) (directory.erase player) where
  unlimited := hagrees.unlimited
  common other found hfound := by
    rw [MemoryStore.find?_erase] at hfound
    split at hfound
    · cases hfound
    · exact hagrees.common other found hfound
  file other := by
    have htemporary := (FileName.record_ne_temporary other player).symm
    simp only [DirectoryStore.erase, ExtTreeMap.getElem?_erase, Std.compare_eq_iff_eq,
      FileName.record_inj, MemoryStore.find?_erase, if_neg htemporary, hagrees.file]
    split <;> rfl
  named name hname := by
    simp only [DirectoryStore.erase, ExtTreeMap.mem_erase] at hname
    exact hagrees.named name hname.2.2

theorem admits (hagrees : Agrees memory directory) (name : String) :
    directory.admits name = true := by
  rw [DirectoryStore.admits, hagrees.unlimited]
  rfl

theorem find?_eq (hagrees : Agrees memory directory) (player : String) :
    directory.find? player = .ok (memory.find? player) := by
  rw [DirectoryStore.find?, hagrees.file]
  cases hfound : memory.find? player with
  | none => rfl
  | some record =>
      simp only [Option.map_some]
      rw [DirectoryStore.parse_print (hagrees.common player record hfound)]
      rfl

/-- The file of an entry in memory. -/
def fileOf (entry : String × PlayerRecord) : String × String :=
  (FileName.record entry.1, DirectoryStore.print entry.2)

theorem mem_files_iff (hagrees : Agrees memory directory) (file : String × String) :
    file ∈ directory.files.toList ↔ file ∈ memory.records.toList.map fileOf := by
  obtain ⟨name, text⟩ := file
  have hentry (player : String) (record : PlayerRecord) :
      (player, record) ∈ memory.records.toList ↔ memory.find? player = some record :=
    ExtTreeMap.mem_toList_iff_getElem?_eq_some
  rw [ExtTreeMap.mem_toList_iff_getElem?_eq_some, List.mem_map]
  constructor
  · intro htext
    have hname : name ∈ directory.files := by
      rw [ExtTreeMap.mem_iff_isSome_getElem?, htext]
      rfl
    obtain ⟨player, rfl⟩ := hagrees.named name hname
    rw [hagrees.file, Option.map_eq_some_iff] at htext
    obtain ⟨record, hfound, rfl⟩ := htext
    exact ⟨(player, record), (hentry player record).mpr hfound, rfl⟩
  · rintro ⟨⟨player, record⟩, hmem, hfile⟩
    obtain ⟨rfl, rfl⟩ := Prod.mk.inj hfile
    rw [hagrees.file, (hentry player record).mp hmem, Option.map_some]

/-- What keeps the keys apart keeps the entries apart. -/
theorem nodup_map_toList {κ α β : Type} [Ord κ] [TransOrd κ] {f : κ × α → β}
    (hkeys : ∀ a b, f a = f b → a.1 = b.1) (map : ExtTreeMap κ α) : (map.toList.map f).Nodup := by
  refine ExtTreeMap.distinct_keys_toList.map f fun a b hdistinct hsame => hdistinct ?_
  rw [hkeys a b hsame]
  exact ReflCmp.compare_self

/-- A listing of the directory finds the records in memory. -/
theorem records_perm (hagrees : Agrees memory directory) :
    memory.records.values.Perm directory.records := by
  have hapart : (memory.records.toList.map fileOf).Nodup :=
    nodup_map_toList (fun a b hsame => FileName.record_injective (Prod.mk.inj hsame).1) _
  have hfiles : (memory.records.toList.map fileOf).Perm directory.files.toList := by
    have hnames := nodup_map_toList (f := id) (fun a b hsame => congrArg Prod.fst hsame)
      directory.files
    rw [List.map_id] at hnames
    exact (List.perm_ext_iff_of_nodup hapart hnames).mpr fun file =>
      (hagrees.mem_files_iff file).symm
  refine .trans (.of_eq ?_) (hfiles.filterMap _)
  rw [values_eq_map_toList, List.filterMap_map, ← List.filterMap_eq_map]
  refine List.filterMap_congr fun entry hentry => ?_
  have hfound := ExtTreeMap.mem_toList_iff_getElem?_eq_some.mp hentry
  simp only [Function.comp, fileOf, FileName.isRecord_record, if_true,
    DirectoryStore.parse_print (hagrees.common entry.1 entry.2 hfound)]
  rfl

/-! ### Steps and runs -/

theorem step (hagrees : Agrees memory directory) {call : StoreCall} (hcommon : call.IsCommon) :
    Agrees (call.run memory).2 (call.run directory).2 := by
  cases call with
  | put record =>
      have hput : (StoreCall.run directory (.put record)).2 = directory.insert record := by
        simp [StoreCall.run, RecordStore.put, DirectoryStore.put, hagrees.admits]
      rw [hput]
      exact hagrees.put hcommon
  | delete player => exact hagrees.delete player
  | get _ | has _ | list _ => exact hagrees

theorem answer_eq (hagrees : Agrees memory directory) (call : StoreCall)
    (hdistinct : (∃ limit, call = .list limit) →
      (memory.records.values.map PlayerRecord.updatedAt).Nodup) :
    call.answer memory = call.answer directory := by
  cases call with
  | put record =>
      simp [StoreCall.answer, StoreCall.run, RecordStore.put, DirectoryStore.put, hagrees.admits]
  | get player =>
      simp [StoreCall.answer, StoreCall.run, RecordStore.get, hagrees.find?_eq]
  | has player =>
      simp [StoreCall.answer, StoreCall.run, RecordStore.has, RecordStore.get, hagrees.find?_eq]
  | delete player => rfl
  | list limit =>
      have hlisted := latestRecords_of_perm limit hagrees.records_perm (hdistinct ⟨limit, rfl⟩)
      simp [StoreCall.answer, StoreCall.run, RecordStore.list, hlisted]

theorem after {calls : List StoreCall} (hagrees : Agrees memory directory)
    (hcommon : ∀ call ∈ calls, call.IsCommon) :
    Agrees (StoreCall.after memory calls) (StoreCall.after directory calls) := by
  induction calls generalizing memory directory with
  | nil => exact hagrees
  | cons call calls ih =>
      exact ih (hagrees.step (hcommon call List.mem_cons_self)) fun later hlater =>
        hcommon later (List.mem_cons_of_mem call hlater)

/-- A call changes nothing of players but the one it is about. -/
theorem get_answer_eq (hagrees : Agrees memory directory) {call : StoreCall}
    (hcommon : call.IsCommon) {player : String} (hother : call.target? ≠ some player) :
    (StoreCall.get player).answer (call.run directory).2 =
      (StoreCall.get player).answer directory := by
  have hkept : (call.run memory).2.find? player = memory.find? player := by
    cases call with
    | put record =>
        have hne : record.player ≠ player := fun heq => hother (congrArg some heq)
        exact (MemoryStore.find?_insert memory record player).trans (if_neg hne)
    | delete owner =>
        have hne : owner ≠ player := fun heq => hother (congrArg some heq)
        exact (MemoryStore.find?_erase memory owner player).trans (if_neg hne)
    | get _ | has _ | list _ => rfl
  have hbefore := hagrees.answer_eq (.get player) (by simp)
  have hafter := (hagrees.step hcommon).answer_eq (.get player) (by simp)
  rw [← hbefore, ← hafter]
  exact congrArg (fun found => StoreAnswer.found (.ok found)) hkept

end Agrees

/-- At any point of any sequence of calls, the directory gives the answer of the store in memory; a
listing only where no two of the records were updated at once. It gives back what was put, field by
field, leaves all other players alone, and lists the latest updated records first. -/
theorem directory_answers_as_memory (path : String) {calls : List StoreCall} {call : StoreCall}
    (hcommon : ∀ earlier ∈ calls, earlier.IsCommon) (hcall : call.IsCommon)
    (hdistinct : (∃ limit, call = .list limit) →
      ((StoreCall.after MemoryStore.empty calls).records.values.map
        PlayerRecord.updatedAt).Nodup) :
    let memory := StoreCall.after MemoryStore.empty calls
    let directory := StoreCall.after (DirectoryStore.unlimited path) calls
    call.answer directory = call.answer memory ∧
    (∀ record, call = .put record →
      (StoreCall.get record.player).answer (call.run directory).2 = .found (.ok (some record))) ∧
    (∀ player, call.target? ≠ some player →
      (StoreCall.get player).answer (call.run directory).2 =
        (StoreCall.get player).answer directory) ∧
    ∀ limit, call = .list limit → ∃ records : List PlayerRecord,
      records.Perm memory.records.values ∧
      records.Pairwise (fun a b => b.updatedAt ≤ a.updatedAt) ∧
      call.answer directory = .listed (.ok (records.take limit)) := by
  intro memory directory
  have hagrees : Agrees memory directory := (Agrees.empty path).after hcommon
  have hanswer : call.answer directory = call.answer memory :=
    (hagrees.answer_eq call hdistinct).symm
  refine ⟨hanswer, ?_, fun player => hagrees.get_answer_eq hcall, ?_⟩
  · rintro record rfl
    have hget := (hagrees.step hcall).find?_eq record.player
    have hfound : (memory.insert record).find? record.player = some record := by simp
    rw [StoreCall.answer, StoreCall.run]
    exact congrArg StoreAnswer.found (hget.trans (congrArg Except.ok hfound))
  · rintro limit rfl
    refine ⟨memory.records.values.mergeSort mayPrecede, List.mergeSort_perm _ _, ?_, hanswer⟩
    simpa [mayPrecede] using pairwise_latest memory.records.values

/-- Names of files that would clash or lead elsewhere if they were not encoded. -/
theorem directory_answers_as_memory_of_odd_names :
    let ana := PlayerRecord.fresh "../ana" (.ofUnix 1 0)
    let nobody := PlayerRecord.fresh "" (.ofUnix 2 0)
    let calls : List StoreCall := [.put ana, .put nobody, .delete "%", .put ana]
    let directory := StoreCall.after (DirectoryStore.unlimited "players") calls
    (StoreCall.list 1).answer directory = .listed (.ok [nobody]) := by
  intro ana nobody calls directory
  have hvalues : (StoreCall.after MemoryStore.empty calls).records.values = [nobody, ana] := by
    decide +kernel
  have hsorted : [nobody, ana].mergeSort mayPrecede = [nobody, ana] :=
    List.mergeSort_of_pairwise (by decide)
  have hmemory : (StoreCall.list 1).answer (StoreCall.after MemoryStore.empty calls) =
      .listed (.ok [nobody]) := by
    change StoreAnswer.listed (.ok ((List.mergeSort _ mayPrecede).take 1)) = _
    rw [hvalues, hsorted]
    rfl
  exact (directory_answers_as_memory "players" (by decide +kernel) (by decide +kernel)
    fun _ => by decide +kernel).1.trans hmemory

end PokerCoach
