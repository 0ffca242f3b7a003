import PokerCoach.Proofs.Progress.Folding
import PokerCoach.Proofs.Skill.Accuracy

/-!
# Hysteresis

The gap between the thresholds of a rule keeps opposite moves apart. A move up needs an accuracy at
one threshold and a move down an accuracy at the other, and every outcome in between brings the
accuracy on its way by no more than its share of the window.
-/

namespace PokerCoach

open Time

section Window

variable (marginalCredit : Rat) {window outcomes : List Outcome} {size : Nat}

/-- How far the accuracy gets away from where it was, in shares of the window there was. -/
theorem abs_accuracy_rtake_sub_mul_le (hwindow : ∀ outcome ∈ window, outcome.isApplicable = true)
    (happlicable : ∀ outcome ∈ outcomes, outcome.isApplicable = true) (hsize : 0 < size)
    (hlength : window.length ≤ size) :
    |windowedAccuracy ((window ++ outcomes).rtake size) marginalCredit -
        windowedAccuracy window marginalCredit| * window.length ≤ outcomes.length := by
  induction outcomes using List.reverseRecOn with
  | nil =>
      have hwhole : (window ++ []).rtake size = window := by
        rw [List.append_nil, List.rtake, Nat.sub_eq_zero_of_le hlength, List.drop_zero]
      rw [hwhole, sub_self, abs_zero, zero_mul]
      exact Nat.cast_nonneg _
  | append_singleton before outcome ih =>
      obtain ⟨hbefore, hlast⟩ := List.forall_mem_append.mp happlicable
      generalize hmiddle : (window ++ before).rtake size = middle at ih
      have hpushed : (window ++ (before ++ [outcome])).rtake size =
          (middle ++ [outcome]).rtake size := by
        rw [← hmiddle, SkillRow.rtake_rtake_append, List.append_assoc]
      have hmiddleLength : middle.length = min size (window.length + before.length) := by
        rw [← hmiddle, SkillRow.length_rtake, List.length_append]
      have hgrown : window.length ≤ ((middle ++ [outcome]).rtake size).length := by
        rw [SkillRow.length_rtake, List.length_append, hmiddleLength]
        omega
      have happlied : ∀ outcome ∈ middle, outcome.isApplicable = true := by
        intro outcome hmem
        rw [← hmiddle] at hmem
        exact List.forall_mem_append.mpr ⟨hwindow, hbefore⟩ outcome
          (SkillRow.mem_of_mem_rtake hmem)
      have hstep := abs_accuracy_push_sub_mul_le marginalCredit happlied
        (hlast outcome List.mem_cons_self) hsize (by omega)
      rw [hpushed, List.length_append, List.length_singleton, Nat.cast_add, Nat.cast_one]
      set next := windowedAccuracy ((middle ++ [outcome]).rtake size) marginalCredit
      set mean := windowedAccuracy middle marginalCredit
      set start := windowedAccuracy window marginalCredit
      calc |next - start| * window.length
          ≤ (|next - mean| + |mean - start|) * window.length := by
            gcongr
            exact abs_sub_le next mean start
        _ = |next - mean| * window.length + |mean - start| * window.length := add_mul _ _ _
        _ ≤ |next - mean| * ((middle ++ [outcome]).rtake size).length + before.length := by
            gcongr
            exact ih hbefore
        _ ≤ 1 + before.length := by gcongr
        _ = before.length + 1 := add_comm _ _

end Window

theorem Mastery.rank_injective : Function.Injective rank := by
  intro level other hsame
  cases level <;> cases other <;> simp_all [rank]

namespace SkillRow

/-! ### Moves in exact numbers -/

section Moves

variable {row : SkillRow} {rule : EvidenceRule Rat} {marginalCredit : Rat} {outcome : Outcome}
  {now : Instant}

/-- A move up was made on an accuracy at the upper threshold, a move down on one at the lower. -/
theorem threshold_of_moves :
    (row.level.rank < (row.record outcome rule marginalCredit now).1.level.rank →
      rule.advanceAt ≤
        windowedAccuracy (row.record outcome rule marginalCredit now).1.window marginalCredit) ∧
    ((row.record outcome rule marginalCredit now).1.level.rank < row.level.rank →
      windowedAccuracy (row.record outcome rule marginalCredit now).1.window marginalCredit ≤
        rule.regressAt) := by
  rcases row.record_cases outcome rule marginalCredit now with
    ⟨-, hlevel⟩ | ⟨transition, -, hsource, htarget, hearned⟩
  · rw [hlevel]
    constructor
    · intro hrises
      exact absurd hrises (Nat.lt_irrefl _)
    · intro hfalls
      exact absurd hfalls (Nat.lt_irrefl _)
  · rw [← hsource, ← htarget, ← hearned.accuracy]
    rcases hearned.direction with ⟨hrisen, hle⟩ | ⟨hfallen, hle⟩
    · rw [Transition.Rises] at hrisen
      refine ⟨fun _ => of_decide_eq_true hle, fun hfalls => ?_⟩
      omega
    · rw [Transition.Falls] at hfallen
      refine ⟨fun hrises => ?_, fun _ => of_decide_eq_true hle⟩
      omega

end Moves

section Drift

variable {row : SkillRow} {rule : EvidenceRule Rat} {marginalCredit : Rat}
  {evaluations : List (Outcome × Instant)}

/-- Each outcome moves the accuracy by a share of the window at most. -/
theorem abs_accuracy_recordAll_sub_mul_le
    (hwindow : ∀ outcome ∈ row.window, outcome.isApplicable = true)
    (hlength : row.window.length ≤ max rule.windowSize.toNat 1)
    (happlicable : ∀ evaluation ∈ evaluations, evaluation.1.isApplicable = true) :
    |windowedAccuracy (row.recordAll rule marginalCredit evaluations).1.window marginalCredit -
        windowedAccuracy row.window marginalCredit| * row.window.length ≤ evaluations.length := by
  rw [window_recordAll]
  split
  · rw [sub_self, abs_zero, zero_mul]
    exact Nat.cast_nonneg _
  · have hoverall := abs_accuracy_rtake_sub_mul_le marginalCredit hwindow
      (List.forall_mem_map.mpr happlicable) (Nat.lt_of_lt_of_le one_pos (le_max_right _ 1)) hlength
    rwa [List.length_map, ← applied_eq_map happlicable] at hoverall

/-- The accuracy after one of the outcomes against the accuracy after a later one. -/
theorem abs_accuracy_take_sub_mul_le
    (hwindow : ∀ outcome ∈ row.window, outcome.isApplicable = true)
    (happlicable : ∀ evaluation ∈ evaluations, evaluation.1.isApplicable = true) {i j : Nat}
    (hij : i < j) (hj : j < evaluations.length) :
    |windowedAccuracy (row.recordAll rule marginalCredit (evaluations.take (j + 1))).1.window
          marginalCredit -
        windowedAccuracy (row.recordAll rule marginalCredit (evaluations.take (i + 1))).1.window
          marginalCredit| *
      (row.recordAll rule marginalCredit (evaluations.take (i + 1))).1.window.length ≤
        (j - i : Nat) := by
  have hsplit : evaluations.take (j + 1) =
      evaluations.take (i + 1) ++ (evaluations.drop (i + 1)).take (j - i) := by
    rw [← List.take_add]
    congr 1
    omega
  have hcount : ((evaluations.drop (i + 1)).take (j - i)).length = j - i := by
    rw [List.length_take, List.length_drop]
    omega
  have hsome : applied (evaluations.take (i + 1)) ≠ [] := by
    have hearly : ∀ evaluation ∈ evaluations.take (i + 1), evaluation.1.isApplicable = true := by
      intro evaluation hmem
      exact happlicable evaluation (List.mem_of_mem_take hmem)
    rw [applied_eq_map hearly, ← List.length_pos_iff, List.length_map, List.length_take]
    omega
  rw [hsplit, fst_recordAll_append]
  refine (abs_accuracy_recordAll_sub_mul_le ?_ ?_ ?_).trans_eq (congrArg Nat.cast hcount)
  · exact row.window_recordAll_applicable rule marginalCredit hwindow
  · exact row.length_window_recordAll_le rule marginalCredit hsome
  · intro evaluation hmem
    exact happlicable evaluation (List.mem_of_mem_drop (List.mem_of_mem_take hmem))

end Drift

/-- Outcomes that all apply, folded into a row. If the level goes up at one of them and down at a
later one, or the other way round, then the gap between the thresholds, in entries of the window
that the first move left, is no more than the outcomes after it up to the second. So the very next
outcome does not undo a move if the gap is more than one entry. Thresholds, credit and the size of
the window may be any. -/
theorem opposite_moves_apart (row : SkillRow) (rule : EvidenceRule Rat) (marginalCredit : Rat)
    (evaluations : List (Outcome × Instant))
    (hwindow : ∀ outcome ∈ row.window, outcome.isApplicable = true)
    (happlicable : ∀ evaluation ∈ evaluations, evaluation.1.isApplicable = true) :
    let after n := (row.recordAll rule marginalCredit (evaluations.take n)).1
    let rises i := (after i).level.rank < (after (i + 1)).level.rank
    let falls i := (after (i + 1)).level.rank < (after i).level.rank
    (∀ i j, i < j → j < evaluations.length → (rises i ∧ falls j ∨ falls i ∧ rises j) →
      (rule.advanceAt - rule.regressAt) * (after (i + 1)).window.length ≤ (j - i : Nat)) ∧
    ∀ i, i + 1 < evaluations.length → (after (i + 1)).level ≠ (after i).level →
      1 < (rule.advanceAt - rule.regressAt) * (after (i + 1)).window.length →
      (after (i + 2)).level ≠ (after i).level := by
  intro after rises falls
  have hthresholds {i : Nat} (hi : i < evaluations.length) :
      (rises i → rule.advanceAt ≤ windowedAccuracy (after (i + 1)).window marginalCredit) ∧
        (falls i → windowedAccuracy (after (i + 1)).window marginalCredit ≤ rule.regressAt) := by
    simp only [rises, falls, after]
    rw [row.fst_recordAll_take_succ rule marginalCredit hi]
    exact threshold_of_moves
  have hapart (i j : Nat) (hij : i < j) (hj : j < evaluations.length)
      (hmoves : rises i ∧ falls j ∨ falls i ∧ rises j) :
      (rule.advanceAt - rule.regressAt) * (after (i + 1)).window.length ≤ (j - i : Nat) := by
    have hi : i < evaluations.length := hij.trans hj
    have hgap : rule.advanceAt - rule.regressAt ≤
        |windowedAccuracy (after (j + 1)).window marginalCredit -
          windowedAccuracy (after (i + 1)).window marginalCredit| := by
      rcases hmoves with ⟨hrises, hfalls⟩ | ⟨hfalls, hrises⟩
      · have hhigh := (hthresholds hi).1 hrises
        have hlow := (hthresholds hj).2 hfalls
        rw [abs_sub_comm]
        exact (sub_le_sub hhigh hlow).trans (le_abs_self _)
      · have hlow := (hthresholds hi).2 hfalls
        have hhigh := (hthresholds hj).1 hrises
        exact (sub_le_sub hhigh hlow).trans (le_abs_self _)
    calc (rule.advanceAt - rule.regressAt) * (after (i + 1)).window.length
        ≤ |windowedAccuracy (after (j + 1)).window marginalCredit -
            windowedAccuracy (after (i + 1)).window marginalCredit| *
              (after (i + 1)).window.length := mul_le_mul_of_nonneg_right hgap (Nat.cast_nonneg _)
      _ ≤ (j - i : Nat) := abs_accuracy_take_sub_mul_le hwindow happlicable hij hj
  refine ⟨hapart, ?_⟩
  intro i hi hmoved hgap hback
  -- What is taken back at once was a move the other way.
  have hopposite : rises i ∧ falls (i + 1) ∨ falls i ∧ rises (i + 1) := by
    have hrank : (after (i + 1)).level.rank ≠ (after i).level.rank :=
      fun hsame => hmoved (Mastery.rank_injective hsame)
    simp only [rises, falls, hback]
    omega
  have hone := hapart i (i + 1) (Nat.lt_succ_self i) hi hopposite
  rw [Nat.add_sub_cancel_left, Nat.cast_one] at hone
  exact absurd hone (not_le.mpr hgap)

/-- A move up on a window of four, and three wrong answers until the move down. -/
theorem opposite_moves_apart_by_three :
    let row : SkillRow :=
      { SkillRow.fresh "pot_odds_call" .introduced .epoch with
        window := [.correct, .correct, .correct]
        opportunities := 3 }
    let rule : EvidenceRule Rat :=
      { minOpportunities := 4, windowSize := 4, advanceAt := 7 / 8, regressAt := 1 / 4 }
    let evaluations : List (Outcome × Instant) :=
      [(.correct, .epoch), (.incorrect, .epoch), (.incorrect, .epoch), (.incorrect, .epoch)]
    let after n := (row.recordAll rule (1 / 2) (evaluations.take n)).1
    (∀ outcome ∈ row.window, outcome.isApplicable = true) ∧
      (∀ evaluation ∈ evaluations, evaluation.1.isApplicable = true) ∧
      [0, 1, 2, 3, 4].map (fun n => (after n).level) =
        [.introduced, .practicing, .practicing, .practicing, .introduced] ∧
      (rule.advanceAt - rule.regressAt) * (after 1).window.length ≤ (3 : Nat) := by
  intro row rule evaluations after
  have hwindow : ∀ outcome ∈ row.window, outcome.isApplicable = true := by decide
  have happlicable : ∀ evaluation ∈ evaluations, evaluation.1.isApplicable = true := by decide
  refine ⟨hwindow, happlicable, by decide +kernel, ?_⟩
  exact (row.opposite_moves_apart rule (1 / 2) evaluations hwindow happlicable).1 0 3 (by decide)
    (by decide) (.inl (by decide +kernel))

end SkillRow

end PokerCoach
