import PokerCoach.Proofs.Skill.Accuracy
import Mathlib.Tactic.GCongr

/-!
# Accuracy as a share

Outcomes that do not apply leave no trace in an accuracy, whatever numbers it is measured in. In
exact numbers it follows from how many of the others are correct, marginal and incorrect: so their
order does not matter, and neither a better outcome nor a higher credit ever lowers it.
-/

namespace PokerCoach

namespace Outcome

/-- The second outcome is the next better one. -/
inductive Improves : Outcome → Outcome → Prop
  | toMarginal : Improves .incorrect .marginal
  | toCorrect : Improves .marginal .correct

variable {α : Type} [Share α]

theorem credit?_eq_none_iff {marginalCredit : α} {outcome : Outcome} :
    outcome.credit? marginalCredit = none ↔ outcome.isApplicable = false := by
  cases outcome <;> simp [credit?, isApplicable]

theorem Improves.exists_credits {marginalCredit : Rat} {worse better : Outcome}
    (himproves : worse.Improves better) :
    ∃ lower higher, worse.credit? (Share.clamp marginalCredit) = some lower ∧
      better.credit? (Share.clamp marginalCredit) = some higher ∧ lower ≤ higher := by
  have hmarginal : marginal.credit? (Share.clamp marginalCredit) =
      some (Share.clamp marginalCredit) := rfl
  obtain ⟨hpositive, hsmall⟩ := credit?_mem_unit hmarginal
  cases himproves with
  | toMarginal => exact ⟨_, _, rfl, hmarginal, hpositive⟩
  | toCorrect => exact ⟨_, _, hmarginal, rfl, hsmall⟩

end Outcome

section Applicable

variable {α : Type} [Share α] (window : List Outcome) (marginalCredit : α)

theorem windowedAccuracy_filter_isApplicable :
    windowedAccuracy (window.filter Outcome.isApplicable) marginalCredit =
      windowedAccuracy window marginalCredit := by
  have hcredits : (window.filter Outcome.isApplicable).filterMap
      (Outcome.credit? (Share.clamp marginalCredit)) =
        window.filterMap (Outcome.credit? (Share.clamp marginalCredit)) := by
    rw [List.filterMap_filter]
    apply List.filterMap_congr
    intro outcome _
    split
    · rfl
    · next hnot => exact (Outcome.credit?_eq_none_iff.mpr (by simpa using hnot)).symm
  rw [windowedAccuracy, windowedAccuracy, hcredits]

variable {window} in
theorem windowedAccuracy_of_not_applicable
    (hnone : ∀ outcome ∈ window, outcome = .notApplicable) :
    windowedAccuracy window marginalCredit = Share.ofNat 0 := by
  have hempty : window.filter Outcome.isApplicable = [] := by
    apply List.filter_eq_nil_iff.mpr
    intro outcome hmem
    rw [hnone outcome hmem]
    decide
  rw [← windowedAccuracy_filter_isApplicable, hempty]
  rfl

end Applicable

/-! ### Exact accuracy by counting -/

section Counting

variable (marginalCredit : Rat) (window : List Outcome)

theorem earnings_cons (first : Outcome) :
    earnings marginalCredit (first :: window) =
      (first.credit? (Share.clamp marginalCredit)).toList ++ earnings marginalCredit window := by
  unfold earnings
  cases hcredit : first.credit? (Share.clamp marginalCredit) with
  | none => rw [List.filterMap_cons_none hcredit, Option.toList_none, List.nil_append]
  | some credit => rw [List.filterMap_cons_some hcredit, Option.toList_some, List.singleton_append]

theorem sum_earnings :
    (earnings marginalCredit window).sum =
      window.count .correct + Share.clamp marginalCredit * window.count .marginal := by
  induction window with
  | nil => simp [earnings]
  | cons first rest ih =>
      rw [earnings_cons, List.sum_append, ih]
      cases first with
      | correct =>
          simp [Outcome.credit?, Share.ofNat]
          ring
      | marginal =>
          simp [Outcome.credit?]
          ring
      | incorrect => simp [Outcome.credit?, Share.ofNat]
      | notApplicable => simp [Outcome.credit?]

theorem length_earnings_eq :
    (earnings marginalCredit window).length =
      window.count .correct + window.count .marginal + window.count .incorrect := by
  induction window with
  | nil => rfl
  | cons first rest ih =>
      rw [earnings_cons, List.length_append, ih]
      cases first <;> simp [Outcome.credit?] <;> omega

theorem windowedAccuracy_eq_div :
    windowedAccuracy window marginalCredit =
      (window.count .correct + Share.clamp marginalCredit * window.count .marginal) /
        (window.count .correct + window.count .marginal + window.count .incorrect) := by
  rw [windowedAccuracy_rat, sum_earnings, length_earnings_eq]
  push_cast
  rfl

variable {marginalCredit window}

theorem windowedAccuracy_of_perm {reordered : List Outcome} (hperm : reordered.Perm window) :
    windowedAccuracy reordered marginalCredit = windowedAccuracy window marginalCredit := by
  rw [windowedAccuracy_eq_div, windowedAccuracy_eq_div, hperm.count_eq, hperm.count_eq,
    hperm.count_eq]

theorem Share.clamp_mono {lower higher : Rat} (hle : lower ≤ higher) :
    Share.clamp lower ≤ Share.clamp higher := by
  rw [Share.clamp_rat, Share.clamp_rat]
  exact max_le_max_left 0 (min_le_min_right 1 hle)

theorem windowedAccuracy_mono_credit {higher : Rat} (hle : marginalCredit ≤ higher) :
    windowedAccuracy window marginalCredit ≤ windowedAccuracy window higher := by
  rw [windowedAccuracy_eq_div, windowedAccuracy_eq_div]
  have hclamp := Share.clamp_mono hle
  gcongr

/-- As many outcomes apply as before, and together they earn no less. -/
theorem windowedAccuracy_le_of_improves {before after : List Outcome} {worse better : Outcome}
    (himproves : worse.Improves better) :
    windowedAccuracy (before ++ worse :: after) marginalCredit ≤
      windowedAccuracy (before ++ better :: after) marginalCredit := by
  obtain ⟨lower, higher, hworse, hbetter, hle⟩ := himproves.exists_credits
  have hsplit {outcome : Outcome} {credit : Rat}
      (hcredit : outcome.credit? (Share.clamp marginalCredit) = some credit) :
      earnings marginalCredit (before ++ outcome :: after) =
        earnings marginalCredit before ++ credit :: earnings marginalCredit after := by
    rw [earnings_append, earnings_cons, hcredit, Option.toList_some, List.singleton_append]
  rw [windowedAccuracy_rat, windowedAccuracy_rat, hsplit hworse, hsplit hbetter]
  simp only [List.sum_append, List.sum_cons, List.length_append, List.length_cons]
  gcongr

end Counting

/-- In whatever numbers it is measured, the accuracy of a window is that of the outcomes in it that
apply, and 0 if there are none. In exact numbers it is the share of the applicable outcomes that is
credited, where a correct one counts in full and a marginal one by its credit, kept between 0 and 1:
it lies between 0 and 1, the order of the window does not matter, and it never falls when an outcome
gets better or when the credit grows. -/
theorem windowedAccuracy_is_credited_share (window : List Outcome) :
    (∀ {α : Type} [Share α] (marginalCredit : α),
      windowedAccuracy window marginalCredit =
          windowedAccuracy (window.filter Outcome.isApplicable) marginalCredit ∧
        ((∀ outcome ∈ window, outcome = .notApplicable) →
          windowedAccuracy window marginalCredit = Share.ofNat 0)) ∧
    ∀ marginalCredit : Rat,
      let accuracy (window : List Outcome) : Rat := windowedAccuracy window marginalCredit
      let credit : Rat := max 0 (min marginalCredit 1)
      accuracy window =
          (window.count .correct + credit * window.count .marginal) /
            (window.count .correct + window.count .marginal + window.count .incorrect) ∧
        (0 ≤ accuracy window ∧ accuracy window ≤ 1) ∧
        (∀ reordered : List Outcome, reordered.Perm window →
          accuracy reordered = accuracy window) ∧
        (∀ before worse better after, window = before ++ worse :: after → worse.Improves better →
          accuracy window ≤ accuracy (before ++ better :: after)) ∧
        ∀ higher, marginalCredit ≤ higher → accuracy window ≤ windowedAccuracy window higher := by
  constructor
  · intro α _ marginalCredit
    constructor
    · exact (windowedAccuracy_filter_isApplicable window marginalCredit).symm
    · exact windowedAccuracy_of_not_applicable marginalCredit
  · intro marginalCredit accuracy credit
    refine ⟨?_, windowedAccuracy_mem_unit marginalCredit window, ?_, ?_, ?_⟩
    · have hshare := windowedAccuracy_eq_div marginalCredit window
      rwa [Share.clamp_rat] at hshare
    · intro reordered hperm
      exact windowedAccuracy_of_perm hperm
    · rintro before worse better after rfl himproves
      exact windowedAccuracy_le_of_improves himproves
    · intro higher hle
      exact windowedAccuracy_mono_credit hle

/-- One outcome of each kind, with half a credit for the marginal one. -/
theorem windowedAccuracy_is_credited_share_of_each_kind :
    let window : List Outcome := [.correct, .notApplicable, .marginal, .incorrect]
    let accuracy : Rat := windowedAccuracy window (1 / 2)
    accuracy = 1 / 2 ∧
      windowedAccuracy [.correct, .marginal, .incorrect] (1 / 2 : Rat) = accuracy ∧
      windowedAccuracy [.incorrect, .marginal, .notApplicable, .correct] (1 / 2 : Rat) = accuracy ∧
      accuracy ≤ windowedAccuracy [.correct, .notApplicable, .marginal, .marginal] (1 / 2 : Rat) ∧
      accuracy ≤ windowedAccuracy window (3 / 4 : Rat) := by
  intro window accuracy
  obtain ⟨hany, hexact⟩ := windowedAccuracy_is_credited_share window
  obtain ⟨hshare, -, hperm, himproves, hcredit⟩ := hexact (1 / 2)
  refine ⟨?_, (hany (1 / 2 : Rat)).1.symm, hperm _ (List.reverse_perm window), ?_, ?_⟩
  · have hcounts : window.count .correct = 1 ∧ window.count .marginal = 1 ∧
        window.count .incorrect = 1 := by decide
    rw [hcounts.1, hcounts.2.1, hcounts.2.2] at hshare
    norm_num at hshare
    exact hshare
  · exact himproves [.correct, .notApplicable, .marginal] _ _ [] rfl .toMarginal
  · exact hcredit (3 / 4) (by norm_num)

end PokerCoach
