import PokerCoach.Proofs.Journal.Attainment
import PokerCoach.Proofs.Progress.Folding
import PokerCoach.Engine.Deciding
import PokerCoach.Engine.Loading

/-!
# What is told of changes

Each change of a record comes with happenings, and with what a report says of it. The happenings
tell the same as the report, in the same order, and lead from the attainment of the record before to
that of the record afterwards.
-/

namespace PokerCoach

open Std Time

namespace Happening

def transition? : Happening → Option (Transition Float)
  | moved _ skill source target accuracy opportunities =>
      some { skill, source, target, accuracy, opportunities }
  | _ => none

def gate? : Happening → Option UInt32
  | gateUnlocked _ gate => some gate
  | _ => none

def backfill? : Happening → Option Backfill
  | backfilled _ skill gate level => some { skill, gate, level }
  | _ => none

/-- Whether the accuracy of a move is a finite number; nothing else tells an accuracy. -/
def IsFinite (happening : Happening) : Prop :=
  ∀ transition ∈ happening.transition?, transition.accuracy.isFinite = true

instance (happening : Happening) : Decidable happening.IsFinite :=
  inferInstanceAs (Decidable (∀ transition ∈ happening.transition?, _))

/-- A happening that a report on a player tells as well; there are moves on finite accuracies
only. -/
inductive IsChangeOf (player : String) : Happening → Prop
  | moved (transition : Transition Float) (hfinite : transition.accuracy.isFinite = true) :
      IsChangeOf player (.ofTransition player transition)
  | gateUnlocked (gate : UInt32) : IsChangeOf player (.gateUnlocked player gate)
  | backfilled (row : Backfill) : IsChangeOf player (.ofBackfill player row)

theorem IsChangeOf.player_eq {player : String} {happening : Happening}
    (hchange : happening.IsChangeOf player) : happening.player = player := by
  cases hchange <;> rfl

theorem IsChangeOf.isFinite {player : String} {happening : Happening}
    (hchange : happening.IsChangeOf player) : happening.IsFinite := by
  cases hchange with
  | moved transition hfinite =>
      rintro _ ⟨⟩
      exact hfinite
  | gateUnlocked gate => rintro _ ⟨⟩
  | backfilled row => rintro _ ⟨⟩

end Happening

/-- A move that can be replayed starts from the level that was told before. -/
theorem Attainment.level?_of_replay? {curriculum : Curriculum} {attainment last : Attainment}
    {before after : List Happening} {happening : Happening}
    (hreplay : attainment.replay? curriculum (before ++ happening :: after) = some last)
    {transition : Transition Float} (hmoved : happening.transition? = some transition) :
    ∃ middle, attainment.replay? curriculum before = some middle ∧
      middle.level? transition.skill = some transition.source := by
  rw [replay?_append] at hreplay
  obtain ⟨middle, hbefore, hrest⟩ := Option.bind_eq_some_iff.mp hreplay
  refine ⟨middle, hbefore, ?_⟩
  rw [replay?, List.foldlM_cons] at hrest
  obtain ⟨next, hafter, -⟩ := Option.bind_eq_some_iff.mp hrest
  cases happening with
  | moved player skill source target accuracy opportunities =>
      cases hmoved
      dsimp only [after?] at hafter
      split at hafter
      · assumption
      · cases hafter
  | _ => cases hmoved

/-- The changes of a player's progress that reports and journals both tell. -/
@[ext]
structure Changes where
  transitions : List (Transition Float) := []
  unlocked : List UInt32 := []
  backfilled : List Backfill := []

namespace Changes

instance : Append Changes where
  append first second :=
    { transitions := first.transitions ++ second.transitions
      unlocked := first.unlocked ++ second.unlocked
      backfilled := first.backfilled ++ second.backfilled }

theorem append_def (first second : Changes) : first ++ second =
    { transitions := first.transitions ++ second.transitions
      unlocked := first.unlocked ++ second.unlocked
      backfilled := first.backfilled ++ second.backfilled } := rfl

@[simp]
theorem append_empty (changes : Changes) : changes ++ ({} : Changes) = changes := by
  simp [append_def]

@[simp]
theorem empty_append (changes : Changes) : ({} : Changes) ++ changes = changes := by
  simp [append_def]

theorem append_assoc (first second third : Changes) :
    first ++ second ++ third = first ++ (second ++ third) := by
  simp [append_def]

/-- What happenings tell of changes. -/
def ofHappenings (happenings : List Happening) : Changes where
  transitions := happenings.filterMap Happening.transition?
  unlocked := happenings.filterMap Happening.gate?
  backfilled := happenings.filterMap Happening.backfill?

@[simp]
theorem ofHappenings_nil : ofHappenings [] = {} := rfl

theorem ofHappenings_append (first second : List Happening) :
    ofHappenings (first ++ second) = ofHappenings first ++ ofHappenings second := by
  simp [ofHappenings, append_def]

theorem ofHappenings_ofTransition (player : String) (transitions : List (Transition Float)) :
    ofHappenings (transitions.map (.ofTransition player)) = { transitions } := by
  simp [ofHappenings, List.filterMap_map, Function.comp_def, Happening.ofTransition,
    Happening.transition?, Happening.gate?, Happening.backfill?]

theorem ofHappenings_ofBackfill (player : String) (backfilled : List Backfill) :
    ofHappenings (backfilled.map (.ofBackfill player)) = { backfilled } := by
  simp [ofHappenings, List.filterMap_map, Function.comp_def, Happening.ofBackfill,
    Happening.transition?, Happening.gate?, Happening.backfill?]

theorem ofHappenings_gateUnlocked (player : String) (unlocked : List UInt32) :
    ofHappenings (unlocked.map (.gateUnlocked player)) = { unlocked } := by
  simp [ofHappenings, List.filterMap_map, Function.comp_def, Happening.transition?,
    Happening.gate?, Happening.backfill?]

theorem ofHappenings_gate (player : String) (gate : UInt32) (rows : List Backfill) :
    ofHappenings (.gateUnlocked player gate :: rows.map (.ofBackfill player)) =
      { unlocked := [gate], backfilled := rows } := by
  rw [← List.singleton_append, ofHappenings_append, ofHappenings_ofBackfill]
  rfl

def size (changes : Changes) : Nat :=
  changes.transitions.length + changes.unlocked.length + changes.backfilled.length

theorem size_append (first second : Changes) :
    (first ++ second).size = first.size + second.size := by
  simp only [size, append_def, List.length_append]
  omega

/-- Happenings that all are changes tell of as many changes. -/
theorem size_ofHappenings {happenings : List Happening}
    (hchanges : ∀ happening ∈ happenings, ∃ player, happening.IsChangeOf player) :
    (ofHappenings happenings).size = happenings.length := by
  induction happenings with
  | nil => rfl
  | cons first rest ih =>
      have hfirst : (ofHappenings [first]).size = 1 := by
        obtain ⟨player, hchange⟩ := hchanges first List.mem_cons_self
        cases hchange <;> rfl
      rw [← List.singleton_append, ofHappenings_append, size_append, hfirst,
        ih fun happening hmem => hchanges happening (List.mem_cons_of_mem first hmem),
        List.length_append, List.length_singleton]

end Changes

def DecisionReport.changes (report : DecisionReport) : Changes where
  transitions := report.transitions
  unlocked := report.unlocked
  backfilled := report.backfilled

/-! ### Lessons -/

namespace PlayerRecord

section Lesson

variable (record : PlayerRecord) (curriculum : Curriculum) (now : Instant)

/-- What an outcome tells: the move of its skill, if there is one. -/
def practiceHappenings (skill : Skill) (outcome : Outcome) (marginalCredit : Float) :
    List Happening :=
  ((record.rowFor skill.id now).record outcome skill.evidence marginalCredit now).2.toList.map
    (.ofTransition record.player)

/-- What opening an earned gate tells: the gate, and the rows of its skills. -/
def advanceHappenings (skill : String) : List Happening :=
  match record.earnedGate? curriculum skill with
  | none => []
  | some gate =>
      .gateUnlocked record.player gate ::
        (((record.unlock gate now).touch now).missing curriculum).map (.ofBackfill record.player)

def learnHappenings (skill : Skill) (outcome : Outcome) (marginalCredit : Float) :
    List Happening :=
  record.practiceHappenings now skill outcome marginalCredit ++
    (record.practice skill outcome marginalCredit now).advanceHappenings curriculum now skill.id

theorem isChangeOf_of_mem_learnHappenings {skill : Skill} {outcome : Outcome}
    {marginalCredit : Float} {happening : Happening}
    (hmem : happening ∈ record.learnHappenings curriculum now skill outcome marginalCredit) :
    happening.IsChangeOf record.player := by
  rcases List.mem_append.mp hmem with hmem | hmem
  · obtain ⟨transition, hmoved, rfl⟩ := List.mem_map.mp hmem
    have hearned := SkillRow.isEarnedBy_of_record (Option.mem_toList.mp hmoved)
    exact .moved transition hearned.finite
  · unfold advanceHappenings at hmem
    split at hmem
    · exact absurd hmem List.not_mem_nil
    · rcases List.mem_cons.mp hmem with rfl | hmem
      · exact .gateUnlocked _
      · obtain ⟨row, -, rfl⟩ := List.mem_map.mp hmem
        exact .backfilled row

variable {record now} in
/-- A skill that has a row of its name is moved from the level of that row. -/
theorem replay?_practice {skill : Skill} {row : SkillRow} (hrow : record.row? skill.id = some row)
    (hname : row.skill = skill.id) (outcome : Outcome) (marginalCredit : Float) :
    record.attainment.replay? curriculum
        (record.practiceHappenings now skill outcome marginalCredit) =
      some (record.practice skill outcome marginalCredit now).attainment := by
  have hfor : record.rowFor skill.id now = row := by simp [rowFor, hrow]
  have hlevel : record.attainment.level? skill.id = some row.level := by simp [attainment, hrow]
  have hpractice : (record.practice skill outcome marginalCredit now).attainment =
      record.attainment.setLevel skill.id
        (row.record outcome skill.evidence marginalCredit now).1.level := by
    rw [practice, attainment_touch, attainment_setRow, hfor]
  rw [practiceHappenings, hpractice, hfor]
  rcases row.record_cases outcome skill.evidence marginalCredit now with
    ⟨hnone, hsame⟩ | ⟨transition, hsome, hsource, htarget, hearned⟩
  · rw [hnone, hsame, Attainment.setLevel_eq_self hlevel]
    rfl
  · have hskill := hearned.skill.trans (row.skill_record outcome skill.evidence marginalCredit now)
    rw [hsome, ← htarget]
    simp [Attainment.replay?, Attainment.after?, Happening.ofTransition, hskill, hname, hsource,
      hlevel]

variable {curriculum} in
theorem replay?_advance (hwell : curriculum.WellFormed) (skill : String) :
    record.attainment.replay? curriculum (record.advanceHappenings curriculum now skill) =
      some (record.advance curriculum skill now).attainment := by
  cases hearned : record.earnedGate? curriculum skill with
  | none =>
      simp only [advanceHappenings, advance, hearned]
      rfl
  | some gate =>
      simp only [advanceHappenings, advance, hearned]
      have hrows := addRows?_missing ((record.unlock gate now).touch now) curriculum now hwell
      rw [attainment_touch, attainment_unlock] at hrows
      exact (Attainment.replay?_ofBackfill curriculum _ record.player _).trans hrows

variable {record curriculum} in
theorem replay?_learn (hwell : curriculum.WellFormed) {skill : Skill} {row : SkillRow}
    (hrow : record.row? skill.id = some row) (hname : row.skill = skill.id) (outcome : Outcome)
    (marginalCredit : Float) :
    record.attainment.replay? curriculum
        (record.learnHappenings curriculum now skill outcome marginalCredit) =
      some (record.learn curriculum skill outcome marginalCredit now).attainment := by
  rw [learnHappenings, Attainment.replay?_append, replay?_practice curriculum hrow hname,
    Option.bind_some]
  exact replay?_advance _ now hwell skill.id

/-! ### Setting up -/

variable {curriculum} in
theorem replay?_setUp (hwell : curriculum.WellFormed) (player : String) :
    record.attainment.replay? curriculum
        (Engine.setupHappenings player (record.ensureEntryGate now).2
          ((record.ensureEntryGate now).1.missing curriculum)) =
      some (record.setUp curriculum now).attainment := by
  have hrows := addRows?_missing (record.ensureEntryGate now).1 curriculum now hwell
  rw [Engine.setupHappenings, Attainment.replay?_append, setUp]
  unfold ensureEntryGate at hrows ⊢
  split at hrows
  · rename_i hopen
    simp only [if_pos hopen]
    exact (Attainment.replay?_ofBackfill curriculum _ player _).trans hrows
  · rename_i hlocked
    rw [attainment_touch, attainment_unlock] at hrows
    simp only [if_neg hlocked, if_true]
    exact (Attainment.replay?_ofBackfill curriculum _ player _).trans hrows

end Lesson

/-! ### New players -/

theorem mem_openGates_iff {record : PlayerRecord} {gate : UInt32} :
    gate ∈ record.openGates ↔ record.isUnlocked gate = true := by
  simp only [openGates, List.mem_map, List.mem_filter, Prod.exists, exists_and_right,
    exists_eq_right, ExtTreeMap.mem_toList_iff_getElem?_eq_some, isUnlocked, Option.any_eq_true]

theorem nodup_startRows {curriculum : Curriculum} (hwell : curriculum.WellFormed)
    (start : UInt32) : ((startRows curriculum start).map Backfill.skill).Nodup := by
  refine nodup_flatMap_skill ?_ fun gate => ?_
  · have hnodup := hwell.nodup
    rw [Curriculum.skills, List.map_flatMap, ← List.takeWhile_append_dropWhile
      (p := fun gate : Gate => decide (gate.number ≤ start)) (l := curriculum.gates),
      List.flatMap_append] at hnodup
    exact hnodup.sublist (List.sublist_append_left _ _)
  · rw [List.map_map]
    exact (List.map_id' _).symm ▸ List.Sublist.refl _

/-- Opening gates has no part in the rows of a new player. -/
theorem row?_of_onboard? {curriculum : Curriculum} {player : String} {now : Instant}
    {experience : Experience} {record : PlayerRecord} {rows : List Backfill}
    (honboard : (fresh player now).onboard? curriculum experience now = some (record, rows))
    (id : String) :
    record.row? id = ((fresh player now).addRows
      (startRows curriculum (startGate curriculum experience)) now).row? id := by
  have hunlocked (gates : List Gate) (record : PlayerRecord) :
      (gates.foldl (fun record gate => record.unlock gate.number now) record).row? id =
        record.row? id := by
    induction gates generalizing record with
    | nil => rfl
    | cons gate rest ih => exact ih _
  unfold onboard? at honboard
  split at honboard
  · cases honboard
  · cases honboard
    change (addRows _ _ now).row? id = _
    rw [row?_addRows, row?_addRows, hunlocked]

/-- The rows of a new player and the gates that are open then lead to the first record. -/
theorem replay?_onboard {curriculum : Curriculum} (hwell : curriculum.WellFormed) {player : String}
    {now : Instant} {experience : Experience} {record : PlayerRecord} {rows : List Backfill}
    (honboard : (fresh player now).onboard? curriculum experience now = some (record, rows)) :
    Attainment.blank.replay? curriculum
      (Engine.onboardHappenings player experience record rows) = some record.attainment := by
  let seeded := (fresh player now).addRows
    (startRows curriculum (startGate curriculum experience)) now
  have hseeded : Attainment.blank.addRows?
      (startRows curriculum (startGate curriculum experience)) = some seeded.attainment := by
    rw [← attainment_fresh now player]
    exact addRows?_attainment _ now (fun row _ => by simp [fresh, row?]) (nodup_startRows hwell _)
  have hlevels : seeded.attainment.level? = record.attainment.level? :=
    funext fun id => congrArg (Option.map SkillRow.level) (row?_of_onboard? honboard id).symm
  have hopen : (fun gate => decide (gate ∈ record.openGates) || seeded.attainment.isOpen gate) =
      record.attainment.isOpen := by
    funext gate
    have hlocked : seeded.attainment.isOpen gate = false := by
      change seeded.isUnlocked gate = false
      rw [isUnlocked, show seeded.gates = (fresh player now).gates by
        simp only [seeded]; rw [addRows_eq]]
      exact isUnlocked_fresh now player gate
    rw [hlocked, Bool.or_false]
    exact Bool.eq_iff_iff.mpr (decide_eq_true_iff.trans mem_openGates_iff)
  calc Attainment.blank.replay? curriculum (Engine.onboardHappenings player experience record rows)
      = (Attainment.blank.addRows? (startRows curriculum (startGate curriculum experience))).bind
          fun attainment => attainment.replay? curriculum
            (record.openGates.map (.gateUnlocked player)) := List.foldlM_cons
    _ = some (record.openGates.foldl Attainment.unlock seeded.attainment) := by
        rw [hseeded, Option.bind_some, Attainment.replay?_gateUnlocked]
    _ = some record.attainment := by
        rw [Attainment.foldl_unlock_eq, hopen, hlevels]

end PlayerRecord

end PokerCoach
