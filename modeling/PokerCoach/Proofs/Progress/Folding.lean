import PokerCoach.Proofs.Progress.Extension
import Mathlib.Algebra.Group.Nat.Defs
import Mathlib.Data.List.DropRight

/-!
# Outcomes folded into a row

What a list of outcomes makes of a row, one after the other: the window holds the latest of those
that apply, the count has grown by as many, and the moves lead from the level there was to the level
there is, each by one level and on the window of its moment.
-/

namespace PokerCoach

open Time

/-! ### Moves -/

namespace Transition

variable {α : Type}

def Rises (transition : Transition α) : Prop :=
  transition.target.rank = transition.source.rank + 1

def Falls (transition : Transition α) : Prop :=
  transition.source.rank = transition.target.rank + 1

/-- Moves of one level each, every one from where the move before it has led. -/
inductive Path : Mastery → List (Transition α) → Mastery → Prop
  | nil (level : Mastery) : Path level [] level
  | cons {transition : Transition α} {rest : List (Transition α)} {last : Mastery}
      (hmoves : transition.Rises ∨ transition.Falls) (hrest : Path transition.target rest last) :
      Path transition.source (transition :: rest) last

variable [Share α]

/-- A move as a row gives reason for it, once the outcome that leads to the move is in. -/
structure IsEarnedBy (transition : Transition α) (row : SkillRow) (rule : EvidenceRule α)
    (marginalCredit : α) : Prop where
  skill : transition.skill = row.skill
  opportunities : transition.opportunities = row.opportunities
  enough : rule.minOpportunities ≤ row.opportunities
  accuracy : transition.accuracy = windowedAccuracy row.window marginalCredit
  finite : Share.isFinite transition.accuracy = true
  direction :
    (transition.Rises ∧ Share.le rule.advanceAt transition.accuracy = true) ∨
      (transition.Falls ∧ Share.le transition.accuracy rule.regressAt = true)

theorem IsEarnedBy.moves {transition : Transition α} {row : SkillRow} {rule : EvidenceRule α}
    {marginalCredit : α} (hearned : transition.IsEarnedBy row rule marginalCredit) :
    transition.Rises ∨ transition.Falls :=
  hearned.direction.imp And.left And.left

end Transition

namespace Mastery

theorem rank_advance_of_ne {level : Mastery} (hmoves : level.advance ≠ level) :
    level.advance.rank = level.rank + 1 := by
  cases level with
  | automatic => exact absurd rfl hmoves
  | _ => rfl

theorem rank_regress_of_ne {level : Mastery} (hmoves : level.regress ≠ level) :
    level.rank = level.regress.rank + 1 := by
  cases level with
  | introduced => exact absurd rfl hmoves
  | _ => rfl

/-- A level changes after enough opportunities only, on a finite accuracy, and by one step in the
direction of the threshold that is met. -/
theorem of_next_ne {α : Type} [Share α] {level : Mastery} {accuracy : α} {opportunities : UInt32}
    {rule : EvidenceRule α} (hmoves : level.next accuracy opportunities rule ≠ level) :
    rule.minOpportunities ≤ opportunities ∧ Share.isFinite accuracy = true ∧
      (((level.next accuracy opportunities rule).rank = level.rank + 1 ∧
          Share.le rule.advanceAt accuracy = true) ∨
        (level.rank = (level.next accuracy opportunities rule).rank + 1 ∧
          Share.le accuracy rule.regressAt = true)) := by
  unfold next at hmoves ⊢
  by_cases hearly : (opportunities < rule.minOpportunities || !Share.isFinite accuracy) = true
  · rw [if_pos hearly] at hmoves
    exact absurd rfl hmoves
  rw [if_neg hearly] at hmoves ⊢
  simp only [Bool.or_eq_true, decide_eq_true_eq, Bool.not_eq_true', not_or, Bool.not_eq_false]
    at hearly
  refine ⟨UInt32.not_lt.mp hearly.1, hearly.2, ?_⟩
  by_cases hhigh : Share.le rule.advanceAt accuracy = true
  · rw [if_pos hhigh] at hmoves ⊢
    exact .inl ⟨rank_advance_of_ne hmoves, hhigh⟩
  · rw [if_neg hhigh] at hmoves ⊢
    by_cases hlow : Share.le accuracy rule.regressAt = true
    · rw [if_pos hlow] at hmoves ⊢
      exact .inr ⟨rank_regress_of_ne hmoves, hlow⟩
    · rw [if_neg hlow] at hmoves
      exact absurd rfl hmoves

end Mastery

/-! ### One outcome -/

namespace SkillRow

section One

variable {α : Type} [Share α] (row : SkillRow) (outcome : Outcome) (rule : EvidenceRule α)
  (marginalCredit : α) (now : Instant)

theorem record_of_not_applicable {outcome : Outcome} (hskipped : outcome.isApplicable = false) :
    row.record outcome rule marginalCredit now = (row, none) := by
  simp [record, hskipped]

theorem window_record :
    (row.record outcome rule marginalCredit now).1.window =
      if outcome.isApplicable then
        (row.window ++ [outcome]).rtake (max rule.windowSize.toNat 1)
      else row.window := by
  obtain ⟨level, moved, hrecord⟩ := row.exists_record_eq outcome rule marginalCredit now
  rw [hrecord]
  split <;> rfl

/-- An outcome leaves the level as it is and tells nothing, or tells of the move to the new level. -/
theorem record_cases :
    ((row.record outcome rule marginalCredit now).2 = none ∧
      (row.record outcome rule marginalCredit now).1.level = row.level) ∨
    ∃ transition, (row.record outcome rule marginalCredit now).2 = some transition ∧
      transition.source = row.level ∧
      transition.target = (row.record outcome rule marginalCredit now).1.level ∧
      transition.IsEarnedBy (row.record outcome rule marginalCredit now).1 rule
        marginalCredit := by
  unfold record
  by_cases happlies : outcome.isApplicable = true
  · rw [if_pos happlies]
    generalize hpushed : row.push outcome rule.windowSize now = pushed
    have hlevel : pushed.level = row.level := hpushed ▸ rfl
    unfold settle
    by_cases hmoves : pushed.verdict rule marginalCredit = pushed.level
    · rw [if_pos hmoves]
      exact .inl ⟨rfl, hlevel⟩
    · rw [if_neg hmoves]
      obtain ⟨henough, hfinite, hdirection⟩ := Mastery.of_next_ne hmoves
      exact .inr ⟨_, rfl, hlevel, rfl, rfl, rfl, henough, rfl, hfinite, hdirection⟩
  · rw [if_neg happlies]
    exact .inl ⟨rfl, rfl⟩

variable {row outcome rule marginalCredit now}

theorem isEarnedBy_of_record {transition : Transition α}
    (htold : (row.record outcome rule marginalCredit now).2 = some transition) :
    transition.IsEarnedBy (row.record outcome rule marginalCredit now).1 rule marginalCredit := by
  rcases row.record_cases outcome rule marginalCredit now with
    ⟨hnone, -⟩ | ⟨told, hsome, -, -, hearned⟩
  · cases hnone.symm.trans htold
  · cases hsome.symm.trans htold
    exact hearned

end One

/-! ### Any number of outcomes -/

/-- The outcomes that apply, in their order. -/
def applied (evaluations : List (Outcome × Instant)) : List Outcome :=
  (evaluations.map Prod.fst).filter Outcome.isApplicable

theorem applied_concat (before : List (Outcome × Instant)) (outcome : Outcome) (now : Instant) :
    applied (before ++ [(outcome, now)]) =
      applied before ++ if outcome.isApplicable then [outcome] else [] := by
  cases happlies : outcome.isApplicable <;> simp [applied, happlies]

theorem applied_cons (outcome : Outcome) (now : Instant) (rest : List (Outcome × Instant)) :
    applied ((outcome, now) :: rest) =
      if outcome.isApplicable then outcome :: applied rest else applied rest := by
  cases happlies : outcome.isApplicable <;> simp [applied, happlies]

theorem applied_eq_map {evaluations : List (Outcome × Instant)}
    (happlicable : ∀ evaluation ∈ evaluations, evaluation.1.isApplicable = true) :
    applied evaluations = evaluations.map Prod.fst :=
  List.filter_eq_self.mpr (List.forall_mem_map.mpr happlicable)

/-- Cutting a window early cuts nothing off that would be left later. -/
theorem rtake_rtake_append {α : Type} (size : Nat) (first second : List α) :
    (first.rtake size ++ second).rtake size = (first ++ second).rtake size := by
  simp only [List.rtake_eq_reverse_take_reverse, List.reverse_append, List.reverse_reverse,
    List.take_append, List.take_take]
  rw [Nat.min_eq_left (Nat.sub_le _ _)]

theorem length_rtake {α : Type} (size : Nat) (entries : List α) :
    (entries.rtake size).length = min size entries.length := by
  rw [List.rtake, List.length_drop]
  omega

theorem mem_of_mem_rtake {α : Type} {size : Nat} {entries : List α} {entry : α}
    (hmem : entry ∈ entries.rtake size) : entry ∈ entries :=
  List.mem_of_mem_drop hmem

section All

variable {α : Type} [Share α] (row : SkillRow) (rule : EvidenceRule α) (marginalCredit : α)

theorem recordAll_cons (outcome : Outcome) (now : Instant) (rest : List (Outcome × Instant)) :
    row.recordAll rule marginalCredit ((outcome, now) :: rest) =
      (((row.record outcome rule marginalCredit now).1.recordAll rule marginalCredit rest).1,
        (row.record outcome rule marginalCredit now).2.toList ++
          ((row.record outcome rule marginalCredit now).1.recordAll rule marginalCredit rest).2) :=
  rfl

theorem recordAll_concat (before : List (Outcome × Instant)) (outcome : Outcome) (now : Instant) :
    row.recordAll rule marginalCredit (before ++ [(outcome, now)]) =
      (((row.recordAll rule marginalCredit before).1.record outcome rule marginalCredit now).1,
        (row.recordAll rule marginalCredit before).2 ++
          ((row.recordAll rule marginalCredit before).1.record outcome rule marginalCredit
            now).2.toList) := by
  induction before generalizing row with
  | nil =>
      rw [List.nil_append, recordAll_cons]
      exact Prod.ext rfl (List.append_nil _)
  | cons first rest ih =>
      rw [List.cons_append, recordAll_cons, recordAll_cons, ih, List.append_assoc]

theorem window_recordAll (evaluations : List (Outcome × Instant)) :
    (row.recordAll rule marginalCredit evaluations).1.window =
      if applied evaluations = [] then row.window
      else (row.window ++ applied evaluations).rtake (max rule.windowSize.toNat 1) := by
  -- From the end: the last outcome that applies meets the window that the ones before have left.
  induction evaluations using List.reverseRecOn with
  | nil => rfl
  | append_singleton before evaluation ih =>
      obtain ⟨outcome, now⟩ := evaluation
      rw [recordAll_concat, window_record, applied_concat]
      by_cases happlies : outcome.isApplicable = true
      · rw [if_pos happlies, if_pos happlies, if_neg (by simp), ih]
        by_cases hnone : applied before = []
        · rw [if_pos hnone, hnone, List.nil_append]
        · rw [if_neg hnone, rtake_rtake_append, List.append_assoc]
      · rw [if_neg happlies, if_neg happlies, List.append_nil, ih]

theorem opportunities_recordAll (evaluations : List (Outcome × Instant)) :
    (row.recordAll rule marginalCredit evaluations).1.opportunities.toNat =
      min (row.opportunities.toNat + (applied evaluations).length) (2 ^ 32 - 1) := by
  induction evaluations generalizing row with
  | nil =>
      have hbound := row.opportunities.toNat_lt
      change row.opportunities.toNat = min (row.opportunities.toNat + 0) (2 ^ 32 - 1)
      omega
  | cons evaluation rest ih =>
      obtain ⟨outcome, now⟩ := evaluation
      rw [recordAll_cons, ih, opportunities_record, applied_cons]
      by_cases happlies : outcome.isApplicable = true
      · rw [if_pos happlies, if_pos happlies, toNat_countUp, List.length_cons, UInt32.size]
        omega
      · rw [if_neg happlies, if_neg happlies]

/-- The moves that are told lead from the first level to the last. -/
theorem path_recordAll (evaluations : List (Outcome × Instant)) :
    Transition.Path row.level (row.recordAll rule marginalCredit evaluations).2
      (row.recordAll rule marginalCredit evaluations).1.level := by
  induction evaluations generalizing row with
  | nil => exact .nil row.level
  | cons evaluation rest ih =>
      obtain ⟨outcome, now⟩ := evaluation
      have hrest := ih (row.record outcome rule marginalCredit now).1
      rw [recordAll_cons]
      rcases row.record_cases outcome rule marginalCredit now with
        ⟨hnone, hlevel⟩ | ⟨transition, hsome, hsource, htarget, hearned⟩
      · rw [hnone, Option.toList_none, List.nil_append, ← hlevel]
        exact hrest
      · rw [hsome, Option.toList_some, List.singleton_append, ← hsource]
        rw [← htarget] at hrest
        exact .cons hearned.moves hrest

theorem skill_recordAll (evaluations : List (Outcome × Instant)) :
    (row.recordAll rule marginalCredit evaluations).1.skill = row.skill := by
  induction evaluations generalizing row with
  | nil => rfl
  | cons evaluation rest ih =>
      obtain ⟨outcome, now⟩ := evaluation
      rw [recordAll_cons]
      exact (ih _).trans (row.skill_record outcome rule marginalCredit now)

variable {row rule marginalCredit} in
/-- Every move that is told was made on one of the outcomes. -/
theorem exists_of_mem_recordAll {evaluations : List (Outcome × Instant)}
    {transition : Transition α}
    (hmem : transition ∈ (row.recordAll rule marginalCredit evaluations).2) :
    ∃ before outcome now after, evaluations = before ++ (outcome, now) :: after ∧
      ((row.recordAll rule marginalCredit before).1.record outcome rule marginalCredit now).2 =
        some transition := by
  induction evaluations generalizing row with
  | nil => cases hmem
  | cons evaluation rest ih =>
      obtain ⟨outcome, now⟩ := evaluation
      rw [recordAll_cons] at hmem
      rcases List.mem_append.mp hmem with hfirst | hrest
      · exact ⟨[], outcome, now, rest, rfl, Option.mem_toList.mp hfirst⟩
      · obtain ⟨before, other, time, after, rfl, htold⟩ := ih hrest
        exact ⟨(outcome, now) :: before, other, time, after, rfl, htold⟩

variable {evaluations : List (Outcome × Instant)}

theorem fst_recordAll_append (first second : List (Outcome × Instant)) :
    (row.recordAll rule marginalCredit (first ++ second)).1 =
      ((row.recordAll rule marginalCredit first).1.recordAll rule marginalCredit second).1 := by
  induction first generalizing row with
  | nil => rfl
  | cons evaluation rest ih => exact ih _

theorem fst_recordAll_take_succ {n : Nat} (hn : n < evaluations.length) :
    (row.recordAll rule marginalCredit (evaluations.take (n + 1))).1 =
      ((row.recordAll rule marginalCredit (evaluations.take n)).1.record evaluations[n].1 rule
        marginalCredit evaluations[n].2).1 := by
  rw [← List.take_append_getElem hn, recordAll_concat]

theorem window_recordAll_applicable
    (hwindow : ∀ outcome ∈ row.window, outcome.isApplicable = true) :
    ∀ outcome ∈ (row.recordAll rule marginalCredit evaluations).1.window,
      outcome.isApplicable = true := by
  intro outcome hmem
  rw [window_recordAll] at hmem
  split at hmem
  · exact hwindow outcome hmem
  · rcases List.mem_append.mp (mem_of_mem_rtake hmem) with hold | hnew
    · exact hwindow outcome hold
    · exact (List.mem_filter.mp hnew).2

theorem length_window_recordAll_le (hsome : applied evaluations ≠ []) :
    (row.recordAll rule marginalCredit evaluations).1.window.length ≤
      max rule.windowSize.toNat 1 := by
  rw [window_recordAll, if_neg hsome, length_rtake]
  exact Nat.min_le_left _ _

end All

/-- Any list of outcomes, folded into any row under any rule and credit. The window is the latest
part of what was in it and of the outcomes that apply; the count has grown by these, up to the
greatest count; the moves that are told are a path from the first level to the last, each made at
one of the outcomes, after enough of them and on a finite accuracy of the window of that moment that
meets the threshold. An outcome that does not apply changes nothing, and none changes the level
without telling so. -/
theorem recordAll_follows_evidence (row : SkillRow) (rule : EvidenceRule Float)
    (marginalCredit : Float) (evaluations : List (Outcome × Instant)) :
    let folded := row.recordAll rule marginalCredit
    let outcomes := (evaluations.map Prod.fst).filter Outcome.isApplicable
    (outcomes ≠ [] → (folded evaluations).1.window =
      (row.window ++ outcomes).rtake (max rule.windowSize.toNat 1)) ∧
    (folded evaluations).1.opportunities.toNat =
      min (row.opportunities.toNat + outcomes.length) (2 ^ 32 - 1) ∧
    Transition.Path row.level (folded evaluations).2 (folded evaluations).1.level ∧
    (∀ transition ∈ (folded evaluations).2, ∃ before outcome now after,
      evaluations = before ++ (outcome, now) :: after ∧
      (folded (before ++ [(outcome, now)])).2 = (folded before).2 ++ [transition] ∧
      transition.skill = row.skill ∧
      transition.opportunities = (folded (before ++ [(outcome, now)])).1.opportunities ∧
      rule.minOpportunities ≤ transition.opportunities ∧
      transition.accuracy =
        windowedAccuracy (folded (before ++ [(outcome, now)])).1.window marginalCredit ∧
      transition.accuracy.isFinite = true ∧
      ((transition.Rises ∧ rule.advanceAt ≤ transition.accuracy) ∨
        (transition.Falls ∧ transition.accuracy ≤ rule.regressAt))) ∧
    ∀ before outcome now after, evaluations = before ++ (outcome, now) :: after →
      (outcome.isApplicable = false → folded (before ++ [(outcome, now)]) = folded before) ∧
      ((folded (before ++ [(outcome, now)])).1.level ≠ (folded before).1.level →
        ∃ transition, (folded (before ++ [(outcome, now)])).2 = (folded before).2 ++ [transition] ∧
          transition.source = (folded before).1.level ∧
          transition.target = (folded (before ++ [(outcome, now)])).1.level) := by
  intro folded outcomes
  refine ⟨fun happlied => ?_, row.opportunities_recordAll rule marginalCredit evaluations,
    row.path_recordAll rule marginalCredit evaluations, fun transition hmem => ?_,
    fun before outcome now after _ => ⟨fun hskipped => ?_, fun hmoves => ?_⟩⟩
  · exact (row.window_recordAll rule marginalCredit evaluations).trans (if_neg happlied)
  · obtain ⟨before, outcome, now, after, hsplit, htold⟩ := exists_of_mem_recordAll hmem
    have hearned := isEarnedBy_of_record htold
    refine ⟨before, outcome, now, after, hsplit, ?_, ?_⟩
    · simp only [folded, recordAll_concat, htold, Option.toList_some]
    · have hskill := hearned.skill
      rw [skill_record, skill_recordAll] at hskill
      simp only [folded, recordAll_concat]
      refine ⟨hskill, hearned.opportunities, hearned.opportunities ▸ hearned.enough,
        hearned.accuracy, hearned.finite, ?_⟩
      simpa only [Share.le, decide_eq_true_eq] using hearned.direction
  · simp only [folded, recordAll_concat, record_of_not_applicable _ _ _ _ hskipped,
      Option.toList_none, List.append_nil]
  · simp only [folded, recordAll_concat] at hmoves ⊢
    rcases (row.recordAll rule marginalCredit before).1.record_cases outcome rule marginalCredit
      now with
      ⟨-, hlevel⟩ | ⟨transition, hsome, hsource, htarget, -⟩
    · exact absurd hlevel hmoves
    · exact ⟨transition, by rw [hsome, Option.toList_some], hsource, htarget⟩

end SkillRow

end PokerCoach
