import PokerCoach.Session.Memory
import Mathlib.Algebra.BigOperators.Group.Finset.Basic
import Mathlib.Algebra.BigOperators.Group.List.Basic
import Mathlib.Algebra.GroupWithZero.Nat
import Mathlib.Data.FinEnum
import Mathlib.Data.List.Induction

/-!
# What a session remembers

A session that was given some evaluations, one after the other and each with its hand, answers from
those of them that apply: a review of a hand is a stable sort of the evaluations of the hand, and
the summary counts the evaluations of all hands.
-/

namespace PokerCoach

open Std Time

/-- An evaluation with the hand that it is of. -/
structure Entry where
  hand : UInt32
  evaluation : Evaluation

def onHand (hand : UInt32) (entries : List Entry) : List Evaluation :=
  (entries.filter fun entry => entry.hand = hand).map Entry.evaluation

/-- All evaluations that apply: the incorrect ones, then the marginal ones, then the correct ones,
each of these in their order. -/
def worstFirst (evaluations : List Evaluation) : List Evaluation :=
  (evaluations.filter fun e => e.outcome = .incorrect)
    ++ (evaluations.filter fun e => e.outcome = .marginal)
    ++ (evaluations.filter fun e => e.outcome = .correct)

theorem onHand_append (hand : UInt32) (first second : List Entry) :
    onHand hand (first ++ second) = onHand hand first ++ onHand hand second := by
  simp only [onHand, List.filter_append, List.map_append]

theorem onHand_singleton (hand other : UInt32) (evaluation : Evaluation) :
    onHand hand [⟨other, evaluation⟩] = if other = hand then [evaluation] else [] := by
  by_cases hother : other = hand <;> simp [onHand, hother]

theorem onHand_ne_nil_of_mem {entries : List Entry} {entry : Entry} (hmem : entry ∈ entries) :
    onHand entry.hand entries ≠ [] :=
  List.ne_nil_of_mem (List.mem_map_of_mem (List.mem_filter.mpr ⟨hmem, decide_eq_true rfl⟩))

/-- Items put together by their keys are the items in some order. -/
theorem perm_flatMap_filter_key {α κ : Type} [DecidableEq κ] (key : α → κ) {keys : List κ}
    (hnodup : keys.Nodup) {items : List α} (hkeys : ∀ item ∈ items, key item ∈ keys) :
    (keys.flatMap fun k => items.filter fun item => key item = k).Perm items := by
  induction keys generalizing items with
  | nil =>
      have hitems : items = [] := by
        apply List.eq_nil_iff_forall_not_mem.mpr
        intro item hmem
        exact absurd (hkeys item hmem) List.not_mem_nil
      rw [hitems]
      exact .refl _
  | cons k rest ih =>
      obtain ⟨hk, hrest⟩ := List.nodup_cons.mp hnodup
      let others := items.filter fun item => !decide (key item = k)
      have hothers : ∀ item ∈ others, key item ∈ rest := by
        intro item hmem
        obtain ⟨hitem, hne⟩ := List.mem_filter.mp hmem
        exact (List.mem_cons.mp (hkeys item hitem)).resolve_left (by simpa using hne)
      have hsame : ∀ k' ∈ rest, (items.filter fun item => key item = k') =
          others.filter fun item => key item = k' := by
        intro k' hmem
        rw [List.filter_filter]
        apply List.filter_congr
        intro item _
        have hne : k' ≠ k := fun heq => hk (heq ▸ hmem)
        by_cases hkey : key item = k' <;> simp [hkey, hne]
      have hgroups : (rest.flatMap fun k' => items.filter fun item => key item = k') =
          rest.flatMap fun k' => others.filter fun item => key item = k' :=
        List.flatMap_congr hsame
      rw [List.flatMap_cons, hgroups]
      exact ((ih hrest hothers).append_left _).trans (List.filter_append_perm _ items)

/-- Items counted key by key are all of them. -/
theorem sum_length_filter_key {α κ : Type} [DecidableEq κ] (key : α → κ) {keys : List κ}
    (hnodup : keys.Nodup) {items : List α} (hkeys : ∀ item ∈ items, key item ∈ keys) :
    (keys.map fun k => (items.filter fun item => key item = k).length).sum = items.length := by
  rw [← List.length_flatMap]
  exact (perm_flatMap_filter_key key hnodup hkeys).length_eq

/-! ### Reviews -/

section Sorting

variable {evaluations : List Evaluation}

/-- What is sorted by rank is the tiers one after the other. -/
theorem eq_worstFirst_of_sorted
    (hsorted : evaluations.Pairwise fun a b => a.outcome.reviewRank ≤ b.outcome.reviewRank)
    (happlicable : ∀ e ∈ evaluations, e.outcome.isApplicable = true) :
    evaluations = worstFirst evaluations := by
  induction evaluations with
  | nil => rfl
  | cons first rest ih =>
      obtain ⟨hfirst, hrest⟩ := List.pairwise_cons.mp hsorted
      have ih := ih hrest fun e hmem => happlicable e (List.mem_cons_of_mem _ hmem)
      -- No tier before that of the first one has anything left.
      have hnone : ∀ outcome : Outcome, outcome.reviewRank < first.outcome.reviewRank →
          (rest.filter fun e => e.outcome = outcome) = [] := by
        intro outcome hlt
        apply List.filter_eq_nil_iff.mpr
        intro e hmem houtcome
        have hle := hfirst e hmem
        rw [of_decide_eq_true houtcome] at hle
        omega
      have happlies := happlicable first List.mem_cons_self
      rw [worstFirst] at ih ⊢
      cases houtcome : first.outcome with
      | incorrect =>
          simp only [List.filter_cons, houtcome]
          exact congrArg (first :: ·) ih
      | marginal =>
          have hincorrect := hnone .incorrect (by rw [houtcome]; decide)
          rw [hincorrect] at ih
          simp only [List.filter_cons, houtcome, hincorrect]
          exact congrArg (first :: ·) ih
      | correct =>
          have hincorrect := hnone .incorrect (by rw [houtcome]; decide)
          have hmarginal := hnone .marginal (by rw [houtcome]; decide)
          rw [hincorrect, hmarginal] at ih
          simp only [List.filter_cons, houtcome, hincorrect, hmarginal]
          exact congrArg (first :: ·) ih
      | notApplicable =>
          rw [houtcome] at happlies
          cases happlies

theorem worstFirst_congr {others : List Evaluation}
    (hsame : ∀ outcome : Outcome, (evaluations.filter fun e => e.outcome = outcome) =
      others.filter fun e => e.outcome = outcome) :
    worstFirst evaluations = worstFirst others := by
  rw [worstFirst, worstFirst, hsame, hsame, hsame]

end Sorting

namespace Session

section Review

theorem trans_reviewRank (a b c : Evaluation)
    (hab : decide (a.outcome.reviewRank ≤ b.outcome.reviewRank) = true)
    (hbc : decide (b.outcome.reviewRank ≤ c.outcome.reviewRank) = true) :
    decide (a.outcome.reviewRank ≤ c.outcome.reviewRank) = true :=
  decide_eq_true ((of_decide_eq_true hab).trans (of_decide_eq_true hbc))

theorem total_reviewRank (a b : Evaluation) :
    (decide (a.outcome.reviewRank ≤ b.outcome.reviewRank) ||
      decide (b.outcome.reviewRank ≤ a.outcome.reviewRank)) = true := by
  simpa using Nat.le_total _ _

variable (session : Session) (hand : UInt32)

theorem review_perm : (session.review hand).Perm (session.logged hand) :=
  List.mergeSort_perm _ _

theorem pairwise_review :
    (session.review hand).Pairwise fun a b => a.outcome.reviewRank ≤ b.outcome.reviewRank := by
  have hsorted : (session.review hand).Pairwise fun a b =>
      decide (a.outcome.reviewRank ≤ b.outcome.reviewRank) = true :=
    List.pairwise_mergeSort trans_reviewRank total_reviewRank (session.logged hand)
  exact hsorted.imp of_decide_eq_true

/-- The sort is stable: it keeps the order of evaluations of one outcome. -/
theorem filter_review (outcome : Outcome) :
    ((session.review hand).filter fun e => e.outcome = outcome) =
      (session.logged hand).filter fun e => e.outcome = outcome := by
  let tier := (session.logged hand).filter fun e => e.outcome = outcome
  have hsame : tier.Pairwise fun a b =>
      decide (a.outcome.reviewRank ≤ b.outcome.reviewRank) = true := by
    apply List.pairwise_of_forall_mem_list
    intro a ha b hb
    have ha := of_decide_eq_true (List.mem_filter.mp ha).2
    have hb := of_decide_eq_true (List.mem_filter.mp hb).2
    rw [ha, hb]
    exact decide_eq_true le_rfl
  have hsublist : tier.Sublist (session.review hand) :=
    List.sublist_mergeSort trans_reviewRank total_reviewRank hsame List.filter_sublist
  have hfiltered := hsublist.filter fun e => decide (e.outcome = outcome)
  rw [List.filter_filter] at hfiltered
  simp only [Bool.and_self] at hfiltered
  exact (hfiltered.eq_of_length ((session.review_perm hand).filter _).length_eq.symm).symm

theorem review_eq (happlicable : ∀ e ∈ session.logged hand, e.outcome.isApplicable = true) :
    session.review hand = worstFirst (session.logged hand) := by
  have hreview := eq_worstFirst_of_sorted (session.pairwise_review hand) fun e hmem =>
    happlicable e ((session.review_perm hand).mem_iff.mp hmem)
  exact hreview.trans (worstFirst_congr (session.filter_review hand))

end Review

/-! ### Counts -/

section Counts

variable (evaluations : List Evaluation) (skill : String)

theorem getElem?_countBySkill :
    (countBySkill evaluations)[skill]? =
      let count := evaluations.countP fun e => e.skill = skill
      if count = 0 then none else some count := by
  induction evaluations using List.reverseRecOn with
  | nil => simp [countBySkill]
  | append_singleton before last ih =>
      have hlast : countBySkill (before ++ [last]) = (countBySkill before).insert last.skill
          ((countBySkill before)[last.skill]?.getD 0 + 1) := by
        rw [countBySkill, List.foldl_append]
        rfl
      rw [hlast, ExtTreeMap.getElem?_insert]
      by_cases hskill : last.skill = skill
      · subst hskill
        rw [ih]
        by_cases hnone : (before.countP fun e => decide (e.skill = last.skill)) = 0
        · simp [hnone]
        · simp [hnone]
      · simp [ih, hskill]

theorem sum_countBySkill :
    ((countBySkill evaluations).toList.map Prod.snd).sum = evaluations.length := by
  let counts := countBySkill evaluations
  have hkeys : ∀ e ∈ evaluations, e.skill ∈ counts.keys := by
    intro e hmem
    rw [ExtTreeMap.mem_keys, ExtTreeMap.mem_iff_isSome_getElem?, getElem?_countBySkill]
    have hpositive : (evaluations.countP fun other => decide (other.skill = e.skill)) ≠ 0 := by
      intro hnone
      exact List.countP_eq_zero.mp hnone e hmem (decide_eq_true rfl)
    simp [hpositive]
  have hcounts : counts.toList.map Prod.snd = counts.keys.map fun skill =>
      (evaluations.filter fun e => e.skill = skill).length := by
    rw [← ExtTreeMap.map_fst_toList_eq_keys, List.map_map]
    apply List.map_congr_left
    intro entry hmem
    have hfound := ExtTreeMap.mem_toList_iff_getElem?_eq_some.mp hmem
    rw [getElem?_countBySkill, List.countP_eq_length_filter] at hfound
    dsimp only at hfound
    split at hfound
    · cases hfound
    · exact (Option.some.inj hfound).symm
  rw [hcounts]
  exact sum_length_filter_key Evaluation.skill ExtTreeMap.nodup_keys hkeys

variable {evaluations} in
theorem length_eq_sum_outcomes
    (happlicable : ∀ e ∈ evaluations, e.outcome.isApplicable = true) :
    evaluations.length =
      (evaluations.countP fun e => e.outcome = .correct) +
        (evaluations.countP fun e => e.outcome = .marginal) +
          evaluations.countP fun e => e.outcome = .incorrect := by
  induction evaluations with
  | nil => rfl
  | cons first rest ih =>
      have ih := ih fun e hmem => happlicable e (List.mem_cons_of_mem _ hmem)
      have happlies := happlicable first List.mem_cons_self
      simp only [List.length_cons, List.countP_cons]
      cases houtcome : first.outcome with
      | notApplicable =>
          rw [houtcome] at happlies
          cases happlies
      | _ =>
          simp
          omega

end Counts

/-! ### Sessions and what they were given -/

/-- The session has logged the entries, all of which apply, and nothing else. -/
structure Logs (session : Session) (entries : List Entry) : Prop where
  applicable : ∀ entry ∈ entries, entry.evaluation.outcome.isApplicable = true
  hands : ∀ hand evaluations,
    session.hands[hand]? = some evaluations ↔ evaluations = onHand hand entries ∧ evaluations ≠ []

end Session

/-- The summary counts the entries. -/
structure SessionSummary.Counts (summary : SessionSummary) (entries : List Entry) : Prop where
  evaluations : summary.evaluations = entries.length
  correct : summary.correct = entries.countP fun entry => entry.evaluation.outcome = .correct
  marginal : summary.marginal = entries.countP fun entry => entry.evaluation.outcome = .marginal
  incorrect : summary.incorrect = entries.countP fun entry => entry.evaluation.outcome = .incorrect
  outcomes : summary.evaluations = summary.correct + summary.marginal + summary.incorrect
  bySkill : ∀ skill, summary.bySkill[skill]? =
    let count := entries.countP fun entry => entry.evaluation.skill = skill
    if count = 0 then none else some count
  skills : summary.evaluations = (summary.bySkill.toList.map Prod.snd).sum
  reviews : summary.evaluations = ∑ hand : UInt32, (worstFirst (onHand hand entries)).length
  hands : summary.hands =
    (Finset.univ.filter fun hand : UInt32 => worstFirst (onHand hand entries) ≠ []).card

namespace Session.Logs

variable {session : Session} {entries : List Entry}

theorem start (id owner : String) (cadence : Cadence) (now : Instant) :
    (Session.start id owner cadence now).Logs [] where
  applicable := by simp
  hands := by simp [Session.start, onHand]

theorem logged (hlogs : session.Logs entries) (hand : UInt32) :
    session.logged hand = onHand hand entries := by
  cases hfound : session.hands[hand]? with
  | some evaluations =>
      rw [Session.logged, hfound]
      exact ((hlogs.hands hand evaluations).mp hfound).1
  | none =>
      have hempty : onHand hand entries = [] := by
        by_contra hsome
        cases hfound.symm.trans ((hlogs.hands hand _).mpr ⟨rfl, hsome⟩)
      rw [Session.logged, hfound, hempty]
      rfl

theorem record (hlogs : session.Logs entries) (hand : UInt32) {evaluation : Evaluation}
    (happlicable : evaluation.outcome.isApplicable = true) :
    (session.record hand evaluation).1.Logs (entries ++ [⟨hand, evaluation⟩]) where
  applicable entry hmem := by
    rcases List.mem_append.mp hmem with hold | hnew
    · exact hlogs.applicable entry hold
    · rw [List.mem_singleton.mp hnew]
      exact happlicable
  hands other evaluations := by
    rw [Session.record, if_pos happlicable, onHand_append, onHand_singleton,
      ExtTreeMap.getElem?_insert]
    by_cases hother : hand = other
    · subst hother
      simp only [compare_self, if_true, Option.some.injEq, hlogs.logged]
      constructor
      · rintro rfl
        exact ⟨rfl, by simp⟩
      · rintro ⟨rfl, -⟩
        rfl
    · have hcompare : compare hand other ≠ .eq := fun heq => hother (compare_eq_iff_eq.mp heq)
      rw [if_neg hcompare, if_neg hother, List.append_nil]
      exact hlogs.hands other evaluations

theorem noteSurfaced (hlogs : session.Logs entries) (skill : String) (hand : UInt32) :
    (session.noteSurfaced skill hand).Logs entries :=
  ⟨hlogs.applicable, hlogs.hands⟩

theorem applicable_onHand (hlogs : session.Logs entries) (hand : UInt32) :
    ∀ e ∈ onHand hand entries, e.outcome.isApplicable = true := by
  intro e hmem
  obtain ⟨entry, hentry, rfl⟩ := List.mem_map.mp hmem
  exact hlogs.applicable entry (List.mem_filter.mp hentry).1

theorem review (hlogs : session.Logs entries) (hand : UInt32) :
    session.review hand = worstFirst (onHand hand entries) := by
  rw [← hlogs.logged]
  apply session.review_eq
  rw [hlogs.logged]
  exact hlogs.applicable_onHand hand

theorem length_worstFirst (hlogs : session.Logs entries) (hand : UInt32) :
    (worstFirst (onHand hand entries)).length = (onHand hand entries).length := by
  rw [← hlogs.review, ← hlogs.logged]
  exact (session.review_perm hand).length_eq

theorem mem_hands_iff (hlogs : session.Logs entries) {hand : UInt32} :
    hand ∈ session.hands ↔ onHand hand entries ≠ [] := by
  rw [ExtTreeMap.mem_iff_isSome_getElem?, Option.isSome_iff_exists]
  simp [hlogs.hands]

/-- Hand by hand, the session holds the entries in another order. -/
theorem perm_evaluations (hlogs : session.Logs entries) :
    session.evaluations.Perm (entries.map Entry.evaluation) := by
  have hkeys : ∀ entry ∈ entries, entry.hand ∈ session.hands.keys := by
    intro entry hmem
    rw [ExtTreeMap.mem_keys, hlogs.mem_hands_iff]
    exact onHand_ne_nil_of_mem hmem
  have hgroups : session.evaluations =
      (session.hands.keys.flatMap fun hand => entries.filter fun entry => entry.hand = hand).map
        Entry.evaluation := by
    rw [Session.evaluations, List.map_flatMap, ← ExtTreeMap.map_fst_toList_eq_keys,
      List.flatMap_map]
    apply List.flatMap_congr
    intro entry hmem
    exact ((hlogs.hands _ _).mp (ExtTreeMap.mem_toList_iff_getElem?_eq_some.mp hmem)).1
  rw [hgroups]
  exact (perm_flatMap_filter_key Entry.hand ExtTreeMap.nodup_keys hkeys).map _

theorem countP_evaluations (hlogs : session.Logs entries) (counts : Evaluation → Bool) :
    session.evaluations.countP counts = entries.countP fun entry => counts entry.evaluation := by
  rw [hlogs.perm_evaluations.countP_eq, List.countP_map]
  rfl

/-- However they are listed, there are as many hands with entries as reviews that show something. -/
theorem length_eq_card (hlogs : session.Logs entries) {hands : List UInt32} (hnodup : hands.Nodup)
    (hmem : ∀ hand, hand ∈ hands ↔ onHand hand entries ≠ []) :
    hands.length =
      (Finset.univ.filter fun hand : UInt32 => worstFirst (onHand hand entries) ≠ []).card := by
  have hhands : (Finset.univ.filter fun hand : UInt32 => worstFirst (onHand hand entries) ≠ []) =
      hands.toFinset := by
    ext hand
    rw [Finset.mem_filter, List.mem_toFinset, hmem, ← List.length_pos_iff, ← List.length_pos_iff,
      hlogs.length_worstFirst]
    exact and_iff_right (Finset.mem_univ hand)
  rw [hhands, List.toFinset_card_of_nodup hnodup]

theorem sum_reviews (hlogs : session.Logs entries) :
    entries.length = ∑ hand : UInt32, (worstFirst (onHand hand entries)).length := by
  have hkeys : ∀ entry ∈ entries, entry.hand ∈ (Finset.univ : Finset UInt32).toList :=
    fun entry _ => Finset.mem_toList.mpr (Finset.mem_univ entry.hand)
  calc entries.length
      = ((Finset.univ : Finset UInt32).toList.map fun hand =>
          (entries.filter fun entry => entry.hand = hand).length).sum :=
        (sum_length_filter_key Entry.hand (Finset.nodup_toList _) hkeys).symm
    _ = ∑ hand : UInt32, (entries.filter fun entry => entry.hand = hand).length :=
        Finset.sum_map_toList _ _
    _ = ∑ hand : UInt32, (worstFirst (onHand hand entries)).length := by
        apply Finset.sum_congr rfl
        intro hand _
        rw [hlogs.length_worstFirst, onHand, List.length_map]

theorem summary (hlogs : session.Logs entries) : session.summary.Counts entries := by
  have hlength : session.summary.evaluations = entries.length := by
    rw [Session.summary, hlogs.perm_evaluations.length_eq, List.length_map]
  have happlicable : ∀ e ∈ session.evaluations, e.outcome.isApplicable = true := by
    intro e hmem
    obtain ⟨entry, hentry, rfl⟩ := List.mem_map.mp (hlogs.perm_evaluations.mem_iff.mp hmem)
    exact hlogs.applicable entry hentry
  exact
    { evaluations := hlength
      correct := hlogs.countP_evaluations _
      marginal := hlogs.countP_evaluations _
      incorrect := hlogs.countP_evaluations _
      outcomes := length_eq_sum_outcomes happlicable
      bySkill := fun skill => by
        have hcount := hlogs.countP_evaluations fun e => e.skill = skill
        rw [Session.summary, getElem?_countBySkill, hcount]
      skills := (sum_countBySkill session.evaluations).symm
      reviews := hlength.trans hlogs.sum_reviews
      hands := by
        rw [Session.summary, ← ExtTreeMap.length_keys]
        exact hlogs.length_eq_card ExtTreeMap.nodup_keys fun hand =>
          ExtTreeMap.mem_keys.trans hlogs.mem_hands_iff }

end Session.Logs

end PokerCoach
