import PokerCoach.Proofs.Data.Kept
import PokerCoach.Proofs.Time.Stamp
import PokerCoach.Progress.Codec

/-!
# Player records keep their trees

A player record is read back as it was written, with every row, window, gate and time, as long as
its times are of years of four digits. Outside of these years stamps are written with a sign.
-/

namespace PokerCoach

open Std Data Time

/-! ### Names and times -/

theorem kept_mastery (level : Mastery) : Kept level where
  legible := .text level.name
  reads _ := by cases level <;> rfl

theorem kept_outcome (outcome : Outcome) : Kept outcome where
  legible := .text outcome.name
  reads _ := by cases outcome <;> rfl

theorem kept_experience (experience : Experience) : Kept experience where
  legible := .text experience.name
  reads _ := by cases experience <;> rfl

/-- Whether the stamp of an instant shows a year of four digits. -/
def Time.Instant.IsCommon (t : Instant) : Prop :=
  0 ≤ t.year ∧ t.year ≤ 9999

instance (t : Instant) : Decidable t.IsCommon :=
  inferInstanceAs (Decidable (_ ∧ _))

theorem ofData_stamp (dialect : Dialect) {s : String} {t : Instant}
    (hstamp : readStamp? s = some t) :
    (ofData dialect (.text s) : Except Fault Instant) = .ok t := by
  have htext : (ofData dialect (.text s) : Except Fault String) = .ok s := rfl
  unfold ofData instOfDataInstant
  dsimp only
  rw [htext]
  dsimp only [bind, Except.bind]
  rw [hstamp]
  rfl

theorem kept_instant {t : Instant} (hcommon : t.IsCommon) : Kept t where
  legible := .text t.stamp
  reads dialect := ofData_stamp dialect (readStamp?_stamp hcommon.1 hcommon.2)

theorem kept_instant? {t : Option Instant} (hcommon : ∀ u ∈ t, u.IsCommon) : Kept t := by
  cases t with
  | none => exact kept_none
  | some t => exact kept_some (kept_instant (hcommon t rfl)) Value.noConfusion

/-! ### Records -/

/-- All times in a row. -/
def SkillRow.instants (row : SkillRow) : List Instant :=
  row.createdAt :: row.updatedAt :: row.lastTransitionAt.toList

/-- All times in a player's record. -/
def PlayerRecord.instants (record : PlayerRecord) : List Instant :=
  record.createdAt :: record.updatedAt ::
    ((record.skills.toList.flatMap fun (_, row) => row.instants) ++
      record.gates.toList.flatMap fun (_, entry) => entry.unlockedAt.toList)

def PlayerRecord.IsCommon (record : PlayerRecord) : Prop :=
  ∀ t ∈ record.instants, t.IsCommon

instance (record : PlayerRecord) : Decidable record.IsCommon :=
  inferInstanceAs (Decidable (∀ t ∈ _, _))

theorem kept_row {row : SkillRow} (hcommon : ∀ t ∈ row.instants, t.IsCommon) : Kept row := by
  have hskill := kept_string row.skill
  have hlevel := kept_mastery row.level
  have hwindow := kept_list fun outcome (_ : outcome ∈ row.window) => kept_outcome outcome
  have hopportunities := kept_uint32 row.opportunities
  have hcreated := kept_instant (hcommon row.createdAt (by simp [SkillRow.instants]))
  have hupdated := kept_instant (hcommon row.updatedAt (by simp [SkillRow.instants]))
  have htransition : Kept row.lastTransitionAt :=
    kept_instant? fun t ht => hcommon t (by simp [SkillRow.instants, Option.mem_def.mp ht])
  constructor
  · refine .record _ (by simp) ?_
    simp [hskill.legible, hlevel.legible, hwindow.legible, hopportunities.legible,
      hcreated.legible, hupdated.legible, htransition.legible]
  · intro dialect
    refine (congrArg (· >>= _) (fields_ofNames
      ["skill_id", "state", "window", "opportunities", "created_at", "updated_at",
        "last_transition_at"] dialect rfl (by decide))).trans ?_
    dsimp only [bind, Except.bind]
    rw [Fields.required_kept hskill rfl, Fields.required_kept hlevel rfl,
      Fields.required_kept hwindow rfl, Fields.required_kept hopportunities rfl,
      Fields.required_kept hcreated rfl, Fields.required_kept hupdated rfl,
      Fields.defaulted_kept htransition rfl]
    rfl

theorem kept_entry {entry : GateEntry} (hcommon : ∀ t ∈ entry.unlockedAt, t.IsCommon) :
    Kept entry := by
  have hunlocked := kept_bool entry.unlocked
  have hsince := kept_instant? hcommon
  constructor
  · refine .record _ (by simp) ?_
    simp [hunlocked.legible, hsince.legible]
  · intro dialect
    refine (congrArg (· >>= _) (fields_ofNames ["unlocked", "unlocked_at"] dialect rfl
      (by decide))).trans ?_
    dsimp only [bind, Except.bind]
    rw [Fields.required_kept hunlocked rfl, Fields.optional_kept hsince rfl]
    rfl

theorem kept_record {record : PlayerRecord} (hcommon : record.IsCommon) : Kept record := by
  have hplayer := kept_string record.player
  have hskills : Kept record.skills := kept_stringMap fun entry hentry => kept_row fun t ht =>
    hcommon t (List.mem_cons_of_mem _ (List.mem_cons_of_mem _ (List.mem_append_left _
      (List.mem_flatMap.mpr ⟨entry, hentry, ht⟩))))
  have hgates : Kept record.gates := kept_numberMap fun entry hentry => kept_entry fun t ht =>
    hcommon t (List.mem_cons_of_mem _ (List.mem_cons_of_mem _ (List.mem_append_right _
      (List.mem_flatMap.mpr ⟨entry, hentry, Option.mem_toList.mpr ht⟩))))
  have honboarded : Kept record.onboarded := by
    cases record.onboarded with
    | none => exact kept_none
    | some experience => exact kept_some (kept_experience experience) Value.noConfusion
  have hcreated := kept_instant (hcommon record.createdAt List.mem_cons_self)
  have hupdated := kept_instant
    (hcommon record.updatedAt (List.mem_cons_of_mem _ List.mem_cons_self))
  constructor
  · refine .record _ (by simp) ?_
    simp [hplayer.legible, hskills.legible, hgates.legible, honboarded.legible, hcreated.legible,
      hupdated.legible]
  · intro dialect
    refine (congrArg (· >>= _) (fields_ofNames
      ["player_id", "skills", "gates", "onboarded", "created_at", "updated_at"] dialect rfl
      (by decide))).trans ?_
    dsimp only [bind, Except.bind]
    rw [Fields.required_kept hplayer rfl, Fields.required_kept hskills rfl,
      Fields.required_kept hgates rfl, Fields.defaulted_kept honboarded rfl,
      Fields.required_kept hcreated rfl, Fields.required_kept hupdated rfl]
    rfl

end PokerCoach
