import PokerCoach.Command.Replay
import PokerCoach.Proofs.Engine.Remembering

/-!
# What a replay accounts for

A replay decides its records in order, in a session of its own that it closes at the end. Its output
is what the reports on these decisions say, and its reviews and its summary cover all of it.
-/

namespace PokerCoach

open Std Time

/-! ### First appearances -/

namespace Replay

/-- What the reports say about the hands, in their order. -/
def entries (reports : List DecisionReport) : List Entry :=
  reports.flatMap fun report => report.entries report.hand

/-! ### Reviews -/

section Reviews

variable {reports : List DecisionReport}

theorem onHand_entries_ne_nil_iff {hand : UInt32} :
    onHand hand (entries reports) ≠ [] ↔
      ∃ report ∈ reports, report.hand = hand ∧
        ∃ e ∈ report.evaluations, e.outcome.isApplicable = true := by
  have hmem : onHand hand (entries reports) ≠ [] ↔
      ∃ entry ∈ entries reports, entry.hand = hand := by
    rw [onHand, ne_eq, List.map_eq_nil_iff, List.filter_eq_nil_iff]
    simp
  rw [hmem]
  constructor
  · rintro ⟨entry, hentry, rfl⟩
    obtain ⟨report, hreport, hreported⟩ := List.mem_flatMap.mp hentry
    obtain ⟨e, he, rfl⟩ := List.mem_map.mp hreported
    obtain ⟨hevaluation, happlicable⟩ := List.mem_filter.mp he
    exact ⟨report, hreport, rfl, e, hevaluation, happlicable⟩
  · rintro ⟨report, hreport, rfl, e, hevaluation, happlicable⟩
    have hentry : (⟨report.hand, e⟩ : Entry) ∈ report.entries report.hand :=
      List.mem_map_of_mem (List.mem_filter.mpr ⟨hevaluation, happlicable⟩)
    exact ⟨_, List.mem_flatMap.mpr ⟨report, hreport, hentry⟩, rfl⟩

/-- The replays are the reviews of all hands with an evaluation that applies, each hand once and in
the order in which the hands appear first. -/
structure Covers (replays : List HandReplay) (hands : List UInt32) (reports : List DecisionReport) :
    Prop where
  mem_iff : ∀ hand, hand ∈ replays.map HandReplay.hand ↔
    ∃ report ∈ reports, report.hand = hand ∧
      ∃ e ∈ report.evaluations, e.outcome.isApplicable = true
  order : (replays.map HandReplay.hand).Pairwise fun a b => hands.idxOf a < hands.idxOf b
  review : ∀ replay ∈ replays, replay.review = worstFirst (onHand replay.hand (entries reports))

namespace Covers

variable {replays : List HandReplay} {hands : List UInt32} {opened : Session}
  (hcovers : Covers replays hands reports)
include hcovers

theorem nodup : (replays.map HandReplay.hand).Nodup :=
  hcovers.order.imp fun hlt heq => absurd (heq ▸ hlt) (Nat.lt_irrefl _)

theorem sum_reviews (hlogs : opened.Logs (entries reports)) :
    (replays.map fun replay => replay.review.length).sum = (entries reports).length := by
  have hkeys : ∀ entry ∈ entries reports, entry.hand ∈ replays.map HandReplay.hand := by
    intro entry hmem
    rw [hcovers.mem_iff, ← onHand_entries_ne_nil_iff]
    exact onHand_ne_nil_of_mem hmem
  have hlengths : (replays.map fun replay => replay.review.length) =
      (replays.map HandReplay.hand).map fun hand =>
        ((entries reports).filter fun entry => entry.hand = hand).length := by
    rw [List.map_map]
    apply List.map_congr_left
    intro replay hmem
    rw [hcovers.review replay hmem, hlogs.length_worstFirst, onHand, List.length_map]
    rfl
  rw [hlengths]
  exact sum_length_filter_key Entry.hand hcovers.nodup hkeys

theorem length_eq (hlogs : opened.Logs (entries reports)) :
    replays.length = (Finset.univ.filter fun hand : UInt32 =>
      worstFirst (onHand hand (entries reports)) ≠ []).card := by
  have hlength := hlogs.length_eq_card hcovers.nodup fun hand =>
    (hcovers.mem_iff hand).trans onHand_entries_ne_nil_iff.symm
  rwa [List.length_map] at hlength

end Covers

end Reviews

/-! ### Decisions in a row -/

variable {σ : Type} [RecordStore σ] (engine : Engine σ) (session : String) (clock : Nat → Instant)

/-- The output says what the reports on the records say, and its summary counts all of it. -/
structure Accounts (output : ReplayOutput) (records : List ReplayRecord)
    (reports : List DecisionReport) : Prop where
  success : output.error = none
  decisions : output.decisions = records.length
  transitions : output.transitions = reports.flatMap DecisionReport.transitions
  unlocked : output.unlocked = reports.flatMap DecisionReport.unlocked
  backfilled : output.backfilled = reports.flatMap DecisionReport.backfilled
  unpersisted : output.unpersisted = reports.countP fun report => !report.persisted
  hands : Covers output.hands (records.map fun record => record.decision.hand) reports
  summary : ∃ summary, output.summary = some summary ∧ summary.Counts (entries reports) ∧
    (output.hands.map fun replay => replay.review.length).sum = summary.evaluations ∧
    output.hands.length = summary.hands

end Replay

end PokerCoach
