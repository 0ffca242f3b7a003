import PokerCoach.Skill.Evidence
import Mathlib.Algebra.Order.BigOperators.Group.List
import Mathlib.Algebra.Order.Field.Rat
import Mathlib.Data.List.DropRight
import Mathlib.Tactic.FieldSimp
import Mathlib.Tactic.Linarith
import Mathlib.Tactic.Positivity
import Mathlib.Tactic.Ring

/-!
# Exact accuracy

In exact numbers the accuracy of a window is the mean of what its outcomes earn, each between 0 and
1. So an outcome that enters a window moves the accuracy by no more than its share of the window,
whether it pushes out an old one or not.
-/

namespace PokerCoach

theorem Share.clamp_rat (a : Rat) : Share.clamp a = max 0 (min a 1) := by
  unfold Share.clamp
  simp only [Share.le, Share.ofNat, Nat.cast_zero, Nat.cast_one, Bool.and_eq_true,
    Bool.not_eq_true', decide_eq_false_iff_not, decide_eq_true_eq, not_le]
  by_cases hlow : a < 0
  · rw [if_pos ⟨hlow, hlow.le⟩, min_eq_left (by linarith), max_eq_left hlow.le]
  rw [if_neg fun h => hlow h.1]
  by_cases hhigh : 1 < a
  · rw [if_pos ⟨hhigh, hhigh.le⟩, min_eq_right hhigh.le, max_eq_right zero_le_one]
  · rw [if_neg fun h => hhigh h.1, min_eq_left (not_lt.mp hhigh), max_eq_right (not_lt.mp hlow)]

theorem Outcome.credit?_mem_unit {marginalCredit credit : Rat} {outcome : Outcome}
    (hcredit : outcome.credit? (Share.clamp marginalCredit) = some credit) :
    0 ≤ credit ∧ credit ≤ 1 := by
  cases outcome with
  | notApplicable => cases hcredit
  | correct =>
      cases hcredit
      exact ⟨zero_le_one, le_refl 1⟩
  | incorrect =>
      cases hcredit
      exact ⟨le_refl 0, zero_le_one⟩
  | marginal =>
      cases hcredit
      rw [Share.clamp_rat]
      exact ⟨le_max_left _ _, max_le zero_le_one (min_le_right _ _)⟩

theorem Outcome.exists_credit? (marginalCredit : Rat) {outcome : Outcome}
    (happlies : outcome.isApplicable = true) :
    ∃ credit, outcome.credit? marginalCredit = some credit := by
  cases outcome with
  | notApplicable => cases happlies
  | _ => exact ⟨_, rfl⟩

/-- What the outcomes of a window earn that apply. -/
def earnings (marginalCredit : Rat) (window : List Outcome) : List Rat :=
  window.filterMap (Outcome.credit? (Share.clamp marginalCredit))

section Window

variable (marginalCredit : Rat) (window : List Outcome)

theorem windowedAccuracy_rat :
    windowedAccuracy window marginalCredit =
      (earnings marginalCredit window).sum / (earnings marginalCredit window).length := by
  unfold windowedAccuracy
  change (if (earnings marginalCredit window).isEmpty then (0 : Rat)
    else (earnings marginalCredit window).foldl (· + ·) 0 / _) = _
  rw [← List.sum_eq_foldl]
  split
  · rename_i hnone
    rw [List.isEmpty_iff.mp hnone]
    simp
  · rfl

theorem windowedAccuracy_mem_unit :
    0 ≤ windowedAccuracy window marginalCredit ∧ windowedAccuracy window marginalCredit ≤ 1 := by
  have hunit : ∀ credit ∈ earnings marginalCredit window, 0 ≤ credit ∧ credit ≤ 1 := by
    intro credit hmem
    obtain ⟨outcome, -, hcredit⟩ := List.mem_filterMap.mp hmem
    exact Outcome.credit?_mem_unit hcredit
  have hsum := List.sum_le_card_nsmul _ (1 : Rat) fun credit hmem => (hunit credit hmem).2
  rw [nsmul_one] at hsum
  rw [windowedAccuracy_rat]
  exact ⟨div_nonneg (List.sum_nonneg fun credit hmem => (hunit credit hmem).1) (Nat.cast_nonneg _),
    div_le_one_of_le₀ hsum (Nat.cast_nonneg _)⟩

variable {marginalCredit window}

theorem length_earnings (hwindow : ∀ outcome ∈ window, outcome.isApplicable = true) :
    (earnings marginalCredit window).length = window.length := by
  induction window with
  | nil => rfl
  | cons first rest ih =>
      obtain ⟨hfirst, hrest⟩ := List.forall_mem_cons.mp hwindow
      obtain ⟨credit, hcredit⟩ := Outcome.exists_credit? (Share.clamp marginalCredit) hfirst
      rw [earnings, List.filterMap_cons_some hcredit, List.length_cons, List.length_cons,
        ← ih hrest, earnings]

end Window

/-! ### Outcomes that enter a window -/

section Push

variable {marginalCredit gained lost : Rat} {window : List Outcome} {outcome : Outcome} {size : Nat}

theorem earnings_append (first second : List Outcome) :
    earnings marginalCredit (first ++ second) =
      earnings marginalCredit first ++ earnings marginalCredit second :=
  List.filterMap_append

theorem earnings_singleton (hgained : outcome.credit? (Share.clamp marginalCredit) = some gained) :
    earnings marginalCredit [outcome] = [gained] := by
  rw [earnings, List.filterMap_cons_some hgained, List.filterMap_nil]

/-- While a window grows, the new outcome is held against the mean so far. -/
theorem accuracy_concat_sub (hwindow : ∀ outcome ∈ window, outcome.isApplicable = true)
    (hgained : outcome.credit? (Share.clamp marginalCredit) = some gained) :
    (windowedAccuracy (window ++ [outcome]) marginalCredit -
        windowedAccuracy window marginalCredit) * (window ++ [outcome]).length =
      gained - windowedAccuracy window marginalCredit := by
  simp only [windowedAccuracy_rat, earnings_append, earnings_singleton hgained, List.sum_append,
    List.sum_singleton, List.length_append, List.length_singleton, length_earnings hwindow]
  push_cast
  rcases window with _ | ⟨first, rest⟩
  · simp [earnings]
  · rw [List.length_cons]
    push_cast
    field_simp
    ring

/-- Once it is full, the new outcome is held against the one that it pushes out. -/
theorem accuracy_shift_sub {old : Outcome}
    (hwindow : ∀ outcome ∈ window, outcome.isApplicable = true)
    (hlost : old.credit? (Share.clamp marginalCredit) = some lost)
    (hgained : outcome.credit? (Share.clamp marginalCredit) = some gained) :
    (windowedAccuracy (window ++ [outcome]) marginalCredit -
        windowedAccuracy (old :: window) marginalCredit) * (window ++ [outcome]).length =
      gained - lost := by
  have hcons : old :: window = [old] ++ window := rfl
  rw [hcons]
  simp only [windowedAccuracy_rat, earnings_append, earnings_singleton hgained,
    earnings_singleton hlost, List.sum_append, List.sum_singleton, List.length_append,
    List.length_singleton, length_earnings hwindow]
  push_cast
  field_simp
  ring

variable (marginalCredit) in
/-- The new outcome moves the accuracy by no more than its share of the window. -/
theorem abs_accuracy_push_sub_mul_le (hwindow : ∀ outcome ∈ window, outcome.isApplicable = true)
    (happlies : outcome.isApplicable = true) (hsize : 0 < size) (hlength : window.length ≤ size) :
    |windowedAccuracy ((window ++ [outcome]).rtake size) marginalCredit -
          windowedAccuracy window marginalCredit| *
        ((window ++ [outcome]).rtake size).length ≤ 1 := by
  obtain ⟨gained, hgained⟩ := Outcome.exists_credit? (Share.clamp marginalCredit) happlies
  obtain ⟨hgained₀, hgained₁⟩ := Outcome.credit?_mem_unit hgained
  rw [← abs_of_nonneg (Nat.cast_nonneg (α := Rat) ((window ++ [outcome]).rtake size).length),
    ← abs_mul]
  rcases hlength.lt_or_eq with hgrows | hfull
  · have hrtake : (window ++ [outcome]).rtake size = window ++ [outcome] := by
      rw [List.rtake, List.length_append, List.length_singleton, Nat.sub_eq_zero_of_le hgrows,
        List.drop_zero]
    obtain ⟨hmean₀, hmean₁⟩ := windowedAccuracy_mem_unit marginalCredit window
    rw [hrtake, accuracy_concat_sub hwindow hgained]
    exact abs_le.mpr ⟨by linarith, by linarith⟩
  · cases window with
    | nil => exact absurd hfull hsize.ne
    | cons old rest =>
        obtain ⟨hold, hrest⟩ := List.forall_mem_cons.mp hwindow
        obtain ⟨lost, hlost⟩ := Outcome.exists_credit? (Share.clamp marginalCredit) hold
        obtain ⟨hlost₀, hlost₁⟩ := Outcome.credit?_mem_unit hlost
        have hrtake : (old :: rest ++ [outcome]).rtake size = rest ++ [outcome] := by
          rw [List.rtake, List.length_append, List.length_singleton, hfull, Nat.add_sub_cancel_left]
          rfl
        rw [hrtake, accuracy_shift_sub hrest hlost hgained]
        exact abs_le.mpr ⟨by linarith, by linarith⟩

end Push

end PokerCoach
