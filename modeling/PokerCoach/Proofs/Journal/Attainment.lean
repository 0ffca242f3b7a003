import PokerCoach.Journal.Event
import PokerCoach.Proofs.Progress.Migration

/-!
# Attainment

Where a player stands: the level of each skill and the gates that are open. A journal can be read as
a history of it, in which a move starts from the level there is and a row is new. Every change of a
record is told by happenings that lead from the attainment before to the one after.
-/

namespace PokerCoach

open Std Time

structure Attainment where
  /-- None without a row. -/
  level? : String → Option Mastery
  isOpen : UInt32 → Bool

namespace Attainment

/-- Where a player stands before anything has happened. -/
def blank : Attainment :=
  { level? := fun _ => none, isOpen := fun _ => false }

def setLevel (attained : Attainment) (skill : String) (level : Mastery) : Attainment :=
  { attained with level? := fun id => if skill = id then some level else attained.level? id }

def unlock (attained : Attainment) (gate : UInt32) : Attainment :=
  { attained with isOpen := fun other => decide (gate = other) || attained.isOpen other }

/-- A row for a skill that has none. -/
def addRow? (attained : Attainment) (row : Backfill) : Option Attainment :=
  if attained.level? row.skill = none then some (attained.setLevel row.skill row.level) else none

def addRows? (attained : Attainment) (rows : List Backfill) : Option Attainment :=
  rows.foldlM addRow? attained

/-- What is attained after a happening, if it can have happened. Onboarding tells the level that it
was told, which says what rows it seeds. -/
def after? (curriculum : Curriculum) (attained : Attainment) : Happening → Option Attainment
  | .moved _ skill source target _ _ =>
      if attained.level? skill = some source then some (attained.setLevel skill target) else none
  | .gateUnlocked _ gate => some (attained.unlock gate)
  | .backfilled _ skill gate level => attained.addRow? { skill, gate, level }
  | .onboarded _ experience _ =>
      attained.addRows?
        (PlayerRecord.startRows curriculum (PlayerRecord.startGate curriculum experience))

def replay? (curriculum : Curriculum) (attained : Attainment) (happenings : List Happening) :
    Option Attainment :=
  happenings.foldlM (after? curriculum) attained

variable (curriculum : Curriculum) (attained : Attainment)

variable {attained} in
theorem setLevel_eq_self {skill : String} {level : Mastery}
    (hlevel : attained.level? skill = some level) : attained.setLevel skill level = attained := by
  have hsame : (fun id => if skill = id then some level else attained.level? id) =
      attained.level? := by
    funext id
    split
    · rename_i heq
      exact heq ▸ hlevel.symm
    · rfl
  rw [setLevel, hsame]

theorem replay?_append (first second : List Happening) :
    replay? curriculum attained (first ++ second) =
      (replay? curriculum attained first).bind fun middle => replay? curriculum middle second :=
  List.foldlM_append

theorem replay?_ofBackfill (player : String) (rows : List Backfill) :
    replay? curriculum attained (rows.map (.ofBackfill player)) = attained.addRows? rows :=
  List.foldlM_map

theorem replay?_gateUnlocked (player : String) (gates : List UInt32) :
    replay? curriculum attained (gates.map (.gateUnlocked player)) =
      some (gates.foldl unlock attained) := by
  induction gates generalizing attained with
  | nil => rfl
  | cons gate rest ih => exact ih (attained.unlock gate)

theorem foldl_unlock_eq (gates : List UInt32) :
    gates.foldl unlock attained =
      { attained with isOpen := fun gate => decide (gate ∈ gates) || attained.isOpen gate } := by
  induction gates generalizing attained with
  | nil => simp
  | cons first rest ih =>
      rw [List.foldl_cons, ih]
      simp only [unlock, List.mem_cons, mk.injEq, true_and]
      funext gate
      rw [← Bool.or_assoc, ← Bool.decide_or]
      congr 2
      exact propext ⟨fun h => h.symm.imp Eq.symm id, fun h => (h.imp Eq.symm id).symm⟩

end Attainment

namespace PlayerRecord

def attainment (record : PlayerRecord) : Attainment where
  level? skill := (record.row? skill).map SkillRow.level
  isOpen := record.isUnlocked

variable (record : PlayerRecord) (curriculum : Curriculum) (now : Instant)

@[simp]
theorem attainment_fresh (player : String) : (fresh player now).attainment = .blank := by
  simp only [attainment, Attainment.blank, Attainment.mk.injEq]
  exact ⟨funext fun skill => by simp [fresh, row?], funext fun gate => isUnlocked_fresh now _ gate⟩

@[simp]
theorem attainment_touch : (record.touch now).attainment = record.attainment := rfl

theorem attainment_unlock (gate : UInt32) :
    (record.unlock gate now).attainment = record.attainment.unlock gate := by
  simp only [attainment, Attainment.unlock, Attainment.mk.injEq]
  exact ⟨rfl, funext fun other => record.isUnlocked_unlock now gate other⟩

theorem attainment_setRow (skill : String) (row : SkillRow) :
    (record.setRow skill row).attainment = record.attainment.setLevel skill row.level := by
  simp only [attainment, Attainment.setLevel, Attainment.mk.injEq, row?_setRow]
  refine ⟨funext fun id => ?_, rfl⟩
  split <;> rfl

/-! ### Rows -/

theorem addRow?_attainment {row : Backfill} (hnew : record.row? row.skill = none) :
    record.attainment.addRow? row = some (record.addRow row.skill row.level now).attainment := by
  have hadded : record.addRow row.skill row.level now =
      record.setRow row.skill (.fresh row.skill row.level now) := by
    simp [addRow, hnew]
  rw [hadded, attainment_setRow]
  simp [Attainment.addRow?, attainment, hnew, SkillRow.fresh]

theorem addRows?_attainment {rows : List Backfill}
    (hnew : ∀ row ∈ rows, record.row? row.skill = none)
    (hnodup : (rows.map Backfill.skill).Nodup) :
    record.attainment.addRows? rows = some (record.addRows rows now).attainment := by
  induction rows generalizing record with
  | nil => rfl
  | cons first rest ih =>
      obtain ⟨hfirst, hrest⟩ := List.nodup_cons.mp hnodup
      rw [Attainment.addRows?, List.foldlM_cons,
        record.addRow?_attainment now (hnew first List.mem_cons_self)]
      refine ih _ (fun row hmem => ?_) hrest
      have hne : first.skill ≠ row.skill := fun heq =>
        hfirst (heq ▸ List.mem_map_of_mem hmem)
      rw [row?_addRow, hnew row (List.mem_cons_of_mem first hmem), if_neg hne]
      rfl

/-- Rows of the skills of some gates name no skill twice. -/
theorem nodup_flatMap_skill {gates : List Gate} {rowsOf : Gate → List Backfill}
    (hnodup : (gates.flatMap Gate.skillIds).Nodup)
    (hrows : ∀ gate, ((rowsOf gate).map Backfill.skill).Sublist gate.skillIds) :
    ((gates.flatMap rowsOf).map Backfill.skill).Nodup := by
  refine hnodup.sublist ?_
  rw [List.map_flatMap]
  induction gates with
  | nil => exact .slnil
  | cons gate rest ih =>
      rw [List.flatMap_cons, List.flatMap_cons] at *
      exact (hrows gate).append (ih (hnodup.sublist (List.sublist_append_right _ _)))

/-- The rows that a record is missing lead to the record that has them. -/
theorem addRows?_missing (hwell : curriculum.WellFormed) :
    record.attainment.addRows? (record.missing curriculum) =
      some (record.backfill curriculum now).1.attainment := by
  have hnew : ∀ row ∈ record.missing curriculum, record.row? row.skill = none := by
    intro row hmem
    obtain ⟨gate, -, -, -, -, hrow, -⟩ := (record.mem_missing_iff curriculum).mp hmem
    exact hrow
  rw [record.addRows?_attainment now hnew (record.nodup_missing hwell)]
  unfold backfill
  split
  · rename_i hmissing
    rw [hmissing]
    rfl
  · rfl

end PlayerRecord

end PokerCoach
