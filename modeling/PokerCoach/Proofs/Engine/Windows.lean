import PokerCoach.Proofs.Progress.Folding
import PokerCoach.Proofs.Engine.RecordInvariant

/-!
# What coaching looks at

How a skill is coached, and how its accuracy is told, follows from the window of its row as it
stands. A window is cut to the size that the curriculum gives when an outcome is recorded in it, and
at no other time: a row in which nothing was recorded since keeps the window of the curriculum
before.
-/

namespace PokerCoach

open Std Time

namespace SkillRow

/-- The row with the latest outcomes only. -/
def recent (row : SkillRow) (size : UInt64) : SkillRow :=
  { row with window := latest size row.window }

theorem recent_eq_self {row : SkillRow} {size : UInt64} (hlength : row.window.length ≤ size.toNat) :
    row.recent size = row := by
  have hnone : row.window.length - max size.toNat 1 = 0 := by omega
  rw [recent, latest, hnone, List.drop_zero]

theorem length_window_record_le {α : Type} [Share α] (row : SkillRow) {outcome : Outcome}
    (happlies : outcome.isApplicable = true) (rule : EvidenceRule α) (marginalCredit : α)
    (now : Instant) :
    (row.record outcome rule marginalCredit now).1.window.length ≤
      max rule.windowSize.toNat 1 := by
  rw [window_record, if_pos happlies, length_rtake]
  exact Nat.min_le_left _ _

end SkillRow

namespace Engine

section Reading

variable {σ : Type} [RecordStore σ]

/-- What is told of a skill is what a row tells, or what is told of no row. -/
structure Coaches (engine : Engine σ) (player : String) (skill : Skill) (now : Instant)
    (row : Option SkillRow) : Prop where
  mode : (engine.coachingMode player skill.id now).1 =
    .ofRow row engine.settings.marginalCredit engine.settings.practicingSplit
  summaries : ∃ summaries, (engine.skillSummaries player now).1 = .ok summaries ∧
    (∃ summary ∈ summaries, summary.skill = skill.id) ∧
    ∀ summary ∈ summaries, summary.skill = skill.id →
      summary.accuracy = rowAccuracy row engine.settings.marginalCredit ∧
      summary.windowLength = row.elim 0 (fun row => row.window.length) ∧
      summary.mode = .ofRow row engine.settings.marginalCredit engine.settings.practicingSplit

theorem settings_progress (engine : Engine σ) (player : String) (now : Instant) :
    (engine.progress player now).2.settings = engine.settings :=
  congrArg Course.settings (engine.course_progress player now)

theorem curriculum_progress (engine : Engine σ) (player : String) (now : Instant) :
    (engine.progress player now).2.curriculum = engine.curriculum :=
  congrArg Course.curriculum (engine.course_progress player now)

theorem skillSummaries_of_progress {engine : Engine σ} {player : String} {now : Instant}
    {record : PlayerRecord} (hrecord : (engine.progress player now).1 = .ok record) :
    (engine.skillSummaries player now).1 =
      .ok (engine.curriculum.skills.map (summaryOf engine.settings record)) := by
  unfold skillSummaries
  dsimp only
  rw [hrecord, engine.settings_progress, engine.curriculum_progress]
  rfl

theorem coaches_of_progress {engine : Engine σ} {player : String} {skill : Skill} {now : Instant}
    {record : PlayerRecord} (hskill : engine.curriculum.skill? skill.id = some skill)
    (hrecord : (engine.progress player now).1 = .ok record) :
    engine.Coaches player skill now (record.row? skill.id) := by
  constructor
  · have hsettings := engine.settings_progress player now
    generalize hasked : engine.progress player now = asked at hrecord hsettings
    obtain ⟨found, after⟩ := asked
    dsimp only at hrecord hsettings
    subst hrecord
    simp only [coachingMode, hskill, hasked, Option.isNone_some, Bool.false_eq_true, if_false,
      hsettings]
    rfl
  · refine ⟨_, skillSummaries_of_progress hrecord, ?_, ?_⟩
    · exact ⟨_, List.mem_map_of_mem (List.mem_of_find?_eq_some hskill), rfl⟩
    · intro summary hmem hsame
      obtain ⟨taught, -, rfl⟩ := List.mem_map.mp hmem
      have hid : taught.id = skill.id := hsame
      rw [← hid]
      exact ⟨rfl, rfl, rfl⟩

end Reading

/-- What is known of a row under a skill: it was stored before, or its window fits. -/
def Fits (stored : Option PlayerRecord) (skill : Skill) (id : String) (row : SkillRow) : Prop :=
  id = skill.id →
    (∃ before, stored = some before ∧ before.row? id = some row) ∨
      row.window.length ≤ skill.evidence.windowSize.toNat

theorem fits_fresh (stored : Option PlayerRecord) (skill : Skill) (id : String) (level : Mastery)
    (now : Instant) : Fits stored skill id (.fresh id level now) :=
  fun _ => .inr (Nat.zero_le _)

/-- A curriculum that gives a skill no larger window lets the windows of the skill fit. -/
theorem invariant_fits {curriculum : Curriculum} {skill : Skill}
    (hpositive : skill.evidence.windowSize ≠ 0)
    (hnarrower : ∀ taught, curriculum.skill? skill.id = some taught →
      taught.evidence.windowSize ≤ skill.evidence.windowSize) (stored : Option PlayerRecord) :
    RecordInvariant curriculum fun record => record.EveryRow (Fits stored skill) := by
  refine PlayerRecord.invariant_everyRow (fits_fresh stored skill) ?_
  intro taught row outcome marginalCredit now htaught happlies hid
  have hlength := row.length_window_record_le happlies taught.evidence marginalCredit now
  have hsize := UInt64.le_iff_toNat_le.mp (hnarrower taught (hid ▸ htaught))
  have hone : 1 ≤ skill.evidence.windowSize.toNat :=
    Nat.one_le_iff_ne_zero.mpr fun hzero => hpositive (UInt64.toNat.inj hzero)
  exact .inr (hlength.trans (Nat.max_le.mpr ⟨hsize, hone⟩))

variable {σ : Type} [RecordStore σ] [LawfulStore σ]

theorem fits_reached {store : σ}
    (hstore : ∀ player record, held store player = some record → record.player = player)
    {course : Course} (journal : Option Journal) {operations : List Operation} {skill : Skill}
    (hpositive : skill.evidence.windowSize ≠ 0)
    (hnarrower : ∀ other ∈ course :: operations.filterMap Operation.restarts?,
      ∀ taught, other.curriculum.skill? skill.id = some taught →
        taught.evidence.windowSize ≤ skill.evidence.windowSize) (player : String) :
    ((reached store course journal operations).desk player).All fun record =>
      record.EveryRow (Fits (held store player) skill) := by
  refine (keyed_launch hstore course journal).all_run ?_ ?_ ?_
  · intro operation hmem other hrestarts
    have hother : other ∈ operations.filterMap Operation.restarts? :=
      List.mem_filterMap.mpr ⟨operation, hmem, hrestarts⟩
    exact invariant_fits hpositive (hnarrower other (List.mem_cons_of_mem _ hother)) _
  · exact invariant_fits hpositive (hnarrower course List.mem_cons_self) _
  · rw [desk_launch]
    exact ⟨by rintro _ ⟨⟩, fun before hbefore id row hrow _ => .inl ⟨before, hbefore, hrow⟩⟩

/-- Asking for the progress gives a record that is cached, or one that is stored with its missing
rows. -/
theorem exists_of_progress {engine : Engine (TracedStore σ)} {player : String} {now : Instant}
    {record : PlayerRecord} (hrecord : (engine.progress player now).1 = .ok record) :
    (∃ slot, (engine.desk player).cached = some slot ∧ record = slot.record) ∨
      ∃ stored, (engine.desk player).stored = some stored ∧
        record = (stored.backfill engine.curriculum now).1 := by
  unfold progress at hrecord
  split at hrecord
  · next slot hslot =>
      cases hrecord
      exact .inl ⟨slot, hslot, rfl⟩
  · rcases engine.fetch_eq player with hfound | ⟨error, hfailed⟩
    · dsimp only at hrecord
      rw [hfound] at hrecord
      cases hstored : (engine.desk player).stored with
      | none =>
          rw [hstored] at hrecord
          cases hrecord
      | some stored =>
          rw [hstored] at hrecord
          cases hrecord
          exact .inr ⟨stored, rfl, rfl⟩
    · dsimp only at hrecord
      rw [hfailed] at hrecord
      cases hrecord

theorem everyRow_of_progress {engine : Engine (TracedStore σ)} {player : String} {now : Instant}
    {holds : String → SkillRow → Prop} (hfresh : ∀ id level now, holds id (.fresh id level now))
    (hall : (engine.desk player).All fun record => record.EveryRow holds) {record : PlayerRecord}
    (hrecord : (engine.progress player now).1 = .ok record) : record.EveryRow holds := by
  rcases exists_of_progress hrecord with ⟨slot, hcached, rfl⟩ | ⟨stored, hstored, rfl⟩
  · exact hall.cached slot hcached
  · exact (hall.stored stored hstored).backfill hfresh _ now

/-- On any store, and whatever fails: as long as no curriculum of a run gives a skill a larger
window than the one in force, coaching looks at no more than the latest outcomes that fit this
window, unless the row of the skill is still the one that was stored in the beginning. Of such a row
it looks at all that is stored. -/
theorem coaching_looks_at_window (store : σ)
    (hstore : ∀ player record, held store player = some record → record.player = player)
    (course : Course) (journal : Option Journal) (operations : List Operation)
    (haccepted : (reached store course journal operations).curriculum.Accepted) {skill : Skill}
    (hskill : (reached store course journal operations).curriculum.skill? skill.id = some skill)
    (hnarrower : ∀ other ∈ course :: operations.filterMap Operation.restarts?,
      ∀ taught, other.curriculum.skill? skill.id = some taught →
        taught.evidence.windowSize ≤ skill.evidence.windowSize)
    {player : String} {now : Instant} {record : PlayerRecord}
    (hrecord : ((reached store course journal operations).progress player now).1 = .ok record) :
    let engine := reached store course journal operations
    engine.Coaches player skill now (record.row? skill.id) ∧
    ∀ row, record.row? skill.id = some row →
      (∃ before, held store player = some before ∧ before.row? skill.id = some row) ∨
      (row.window.length ≤ skill.evidence.windowSize.toNat ∧
        engine.Coaches player skill now (some (row.recent skill.evidence.windowSize))) := by
  intro engine
  have hcoaches : engine.Coaches player skill now (record.row? skill.id) :=
    coaches_of_progress hskill hrecord
  refine ⟨hcoaches, fun row hrow => ?_⟩
  have hpositive := haccepted.wellFormed.window skill (Curriculum.skill?_eq_some hskill).1
  have hall := fits_reached hstore journal hpositive hnarrower player
  have hevery := everyRow_of_progress (fits_fresh _ skill) hall hrecord
  rcases hevery skill.id row hrow rfl with hold | hshort
  · exact .inl hold
  · refine .inr ⟨hshort, ?_⟩
    rw [SkillRow.recent_eq_self hshort, ← hrow]
    exact hcoaches

/-- Three outcomes of a skill that is taught in the same way after a restart: what is told of them
is read from the store. -/
theorem coaching_looks_at_window_after_restart :
    let play (action : Action) : Operation :=
      .decide "s" { player := "ana", hand := 1, street := .preflop, flags := { trash := true } }
        { action } .epoch
    let engine := reached MemoryStore.empty {} none
      [play .fold, play .call, play .fold, .restart {} none]
    ∃ (skill : Skill) (row : SkillRow), skill.id = "fold_trash_preflop" ∧
      row.window = [.correct, .incorrect, .correct] ∧
      row.window.length ≤ skill.evidence.windowSize.toNat ∧
      engine.Coaches "ana" skill .epoch (some (row.recent skill.evidence.windowSize)) := by
  intro play engine
  obtain ⟨skill, hskill⟩ := Option.isSome_iff_exists.mp
    (show (engine.curriculum.skill? "fold_trash_preflop").isSome by decide)
  have hid := (Curriculum.skill?_eq_some hskill).2
  rw [← hid] at hskill
  obtain ⟨row, hfound, hwindow⟩ := Option.map_eq_some_iff.mp
    (show ((engine.progress "ana" .epoch).1.toOption.bind fun record =>
      record.row? "fold_trash_preflop").map SkillRow.window =
        some [.correct, .incorrect, .correct] by decide +kernel)
  cases hrecord : (engine.progress "ana" .epoch).1 with
  | error error =>
      rw [hrecord] at hfound
      cases hfound
  | ok record =>
      rw [hrecord, ← hid] at hfound
      have hnarrower : ∀ other ∈ ({} : Course) ::
          [play .fold, play .call, play .fold, .restart {} none].filterMap Operation.restarts?,
          ∀ taught, other.curriculum.skill? skill.id = some taught →
            taught.evidence.windowSize ≤ skill.evidence.windowSize := by
        intro other hmem taught htaught
        have hboth : other ∈ [({} : Course), {}] := hmem
        obtain rfl : other = {} := by simpa using hboth
        obtain rfl : taught = skill := Option.some.inj (htaught.symm.trans hskill)
        exact UInt64.le_refl _
      obtain ⟨-, hlooks⟩ := coaching_looks_at_window MemoryStore.empty
        (player_of_held_empty MemoryStore.find?_empty) {} none
        [play .fold, play .call, play .fold, .restart {} none] (.inl rfl) hskill hnarrower hrecord
      rcases hlooks row hfound with ⟨before, hbefore, -⟩ | ⟨hlength, hcoaches⟩
      · cases (MemoryStore.find?_empty "ana").symm.trans hbefore
      · exact ⟨skill, row, hid, hwindow, hlength, hcoaches⟩

/-- Three outcomes under a window of thirty are still looked at under a window of two, which gives
another mode than the latest two of them. -/
theorem coaching_looks_beyond_window :
    let skill (size : UInt64) : Skill :=
      { id := "fold_trash_preflop", name := "Fold trash", gate := 1
        evidence :=
          { minOpportunities := 1, windowSize := size, advanceAt := 0.7, regressAt := 0.4 } }
    let course (size : UInt64) : Course :=
      { curriculum :=
          ⟨[{ number := 1, name := "", requiredReliable := 1, skills := [skill size] }]⟩ }
    let play (action : Action) : Operation :=
      .decide "s" { player := "ana", hand := 1, street := .preflop, flags := { trash := true } }
        { action } .epoch
    let engine := reached MemoryStore.empty (course 30) none
      [play .fold, play .call, play .fold, .restart (course 2) none]
    let row := (engine.progress "ana" .epoch).1.toOption.bind fun record =>
      record.row? "fold_trash_preflop"
    ((course 30).curriculum.Accepted ∧ (course 2).curriculum.Accepted) ∧
      row.map SkillRow.window = some [.correct, .incorrect, .correct] ∧
      (engine.skillSummaries "ana" .epoch).1.toOption.map (List.map SkillSummary.windowLength) =
        some [3] ∧
      (engine.coachingMode "ana" "fold_trash_preflop" .epoch).1 = .compete ∧
      CoachingMode.ofRow (row.map (·.recent 2)) engine.settings.marginalCredit
        engine.settings.practicingSplit = .learn := by
  intro skill course play engine row
  have haccepted (size : UInt64) (hrule : (skill size).evidence.fault? = none) :
      (course size).curriculum.Accepted := by
    let syllabus : Syllabus :=
      { gates := [{ number := 1, skills := ["fold_trash_preflop"], requiredReliable := 1 }]
        skills := [skill size] }
    have hsorted : Syllabus.sortGates syllabus.gates = syllabus.gates :=
      List.mergeSort_singleton _
    refine .inr ⟨syllabus, Syllabus.curriculum_eq_ok_iff.mpr ?_⟩
    rw [hsorted]
    refine ⟨?_, rfl, rfl, rfl, rfl⟩
    rw [Syllabus.skillFault?, hrule]
    rfl
  exact ⟨⟨haccepted 30 (by decide), haccepted 2 (by decide)⟩, by decide +kernel⟩

end Engine

end PokerCoach
