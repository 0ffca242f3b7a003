import PokerCoach.Proofs.Journal.Changes
import PokerCoach.Proofs.Progress.Sound

/-!
# The records of new players

What onboarding writes of a new player, said without the way it goes: gates are open up to a
frontier, and the skills behind it count as practiced or as reliable.
-/

namespace PokerCoach

open Std Time

namespace Curriculum

/-- The last gate that a new player finds open. -/
def startFrontier (curriculum : Curriculum) : Experience → Nat
  | .beginner => 1
  | .intermediate => min 2 curriculum.lastGate.toNat
  | .advanced => curriculum.lastGate.toNat

end Curriculum

/-- The level of the skills of a gate at or behind a frontier. -/
def Mastery.behind (frontier gate : Nat) : Mastery :=
  if gate = frontier then .introduced
  else if gate + 1 = frontier then .practicing
  else .reliable

namespace PlayerRecord

/-- The record of a new player, with what onboarding says of its rows. -/
structure Starts (record : PlayerRecord) (rows : List Backfill) (curriculum : Curriculum)
    (player : String) (experience : Experience) (now : Instant) : Prop where
  player : record.player = player
  onboarded : record.onboarded = some experience
  isUnlocked_iff : ∀ gate, record.isUnlocked gate = true ↔
    1 ≤ gate.toNat ∧ gate.toNat ≤ curriculum.startFrontier experience
  row?_eq_some_iff : ∀ id row, record.row? id = some row ↔
    ∃ gate ∈ curriculum.gates, gate.number.toNat ≤ curriculum.startFrontier experience ∧
      id ∈ gate.skillIds ∧
      row = .fresh id (.behind (curriculum.startFrontier experience) gate.number.toNat) now
  rows : rows =
    (curriculum.gates.filter fun gate =>
      gate.number.toNat ≤ curriculum.startFrontier experience).flatMap fun gate =>
        gate.skillIds.map fun id =>
          { skill := id
            gate := gate.number
            level := .behind (curriculum.startFrontier experience) gate.number.toNat }

theorem takeWhile_eq_filter {α : Type} {holds : α → Bool} {items : List α}
    (hdown : items.Pairwise fun a b => holds b = true → holds a = true) :
    items.takeWhile holds = items.filter holds := by
  induction items with
  | nil => rfl
  | cons first rest ih =>
      obtain ⟨hfirst, hrest⟩ := List.pairwise_cons.mp hdown
      by_cases hholds : holds first = true
      · rw [List.takeWhile_cons_of_pos hholds, List.filter_cons_of_pos hholds, ih hrest]
      · have hnone : rest.filter holds = [] :=
          List.filter_eq_nil_iff.mpr fun item hmem hitem => hholds (hfirst item hmem hitem)
        rw [List.takeWhile_cons_of_neg hholds, List.filter_cons_of_neg hholds, hnone]

section Start

variable {curriculum : Curriculum} (hwell : curriculum.WellFormed) (hgates : curriculum.gates ≠ [])
include hwell

theorem startGates_eq_filter (start : UInt32) :
    curriculum.gates.takeWhile (fun gate => decide (gate.number ≤ start)) =
      curriculum.gates.filter fun gate => gate.number.toNat ≤ start.toNat := by
  have hnumbers : curriculum.gates.Pairwise fun a b => a.number.toNat < b.number.toNat := by
    have hsorted : (curriculum.gates.map (·.number.toNat)).Pairwise (· < ·) := by
      rw [hwell.numbers]
      exact List.pairwise_lt_range'
    exact List.pairwise_map.mp hsorted
  have hdown : curriculum.gates.Pairwise fun a b =>
      decide (b.number ≤ start) = true → decide (a.number ≤ start) = true := by
    refine hnumbers.imp fun {a b} hlt hle => ?_
    have hle := UInt32.le_iff_toNat_le.mp (of_decide_eq_true hle)
    exact decide_eq_true (UInt32.le_iff_toNat_le.mpr (by omega))
  rw [takeWhile_eq_filter hdown]
  simp only [UInt32.le_iff_toNat_le]

include hgates

theorem one_le_lastGate : 1 ≤ curriculum.lastGate := by
  have hlength : 1 ≤ curriculum.gates.length := List.length_pos_iff.mpr hgates
  rw [UInt32.le_iff_toNat_le, hwell.toNat_lastGate]
  exact hlength

theorem startFrontier_bounds (experience : Experience) :
    1 ≤ curriculum.startFrontier experience ∧
      curriculum.startFrontier experience ≤ curriculum.gates.length := by
  have hlength : 1 ≤ curriculum.gates.length := List.length_pos_iff.mpr hgates
  cases experience with
  | beginner => exact ⟨Nat.le_refl 1, hlength⟩
  | intermediate =>
      rw [Curriculum.startFrontier, hwell.toNat_lastGate]
      omega
  | advanced =>
      rw [Curriculum.startFrontier, hwell.toNat_lastGate]
      omega

theorem toNat_startGate (experience : Experience) :
    (startGate curriculum experience).toNat = curriculum.startFrontier experience := by
  have hmax : max curriculum.lastGate 1 = curriculum.lastGate := by
    change (if curriculum.lastGate ≤ 1 then 1 else curriculum.lastGate) = curriculum.lastGate
    split
    · next hle => exact UInt32.le_antisymm (one_le_lastGate hwell hgates) hle
    · rfl
  cases experience with
  | beginner => rfl
  | intermediate =>
      rw [startGate, hmax, Curriculum.startFrontier]
      change (if 2 ≤ curriculum.lastGate then 2 else curriculum.lastGate).toNat = _
      simp only [UInt32.le_iff_toNat_le, UInt32.toNat_ofNat]
      split
      · next htwo => exact (Nat.min_eq_left htwo).symm
      · next hone => exact (Nat.min_eq_right (Nat.le_of_not_le hone)).symm
  | advanced => rw [startGate, hmax, Curriculum.startFrontier]

/-- In what is behind the start no difference of gate numbers wraps around. -/
theorem startLevel_eq {experience : Experience} {gate : UInt32}
    (hle : gate.toNat ≤ curriculum.startFrontier experience) :
    startLevel (startGate curriculum experience) gate =
      .behind (curriculum.startFrontier experience) gate.toNat := by
  have hstart := toNat_startGate hwell hgates experience
  have hle' : gate ≤ startGate curriculum experience := by
    rwa [UInt32.le_iff_toNat_le, hstart]
  have hsame : startGate curriculum experience = gate ↔
      gate.toNat = curriculum.startFrontier experience := by
    rw [← UInt32.toNat_inj, hstart, eq_comm]
  have hnext : startGate curriculum experience - gate = 1 ↔
      gate.toNat + 1 = curriculum.startFrontier experience := by
    rw [← UInt32.toNat_inj, UInt32.toNat_sub_of_le _ _ hle', hstart, UInt32.toNat_one]
    omega
  simp only [startLevel, Mastery.behind, hsame, hnext]

theorem startRows_eq (experience : Experience) :
    startRows curriculum (startGate curriculum experience) =
      (curriculum.gates.filter fun gate =>
        gate.number.toNat ≤ curriculum.startFrontier experience).flatMap fun gate =>
          gate.skillIds.map fun id =>
            { skill := id
              gate := gate.number
              level := .behind (curriculum.startFrontier experience) gate.number.toNat } := by
  rw [startRows, startGates_eq_filter hwell, toNat_startGate hwell hgates]
  apply List.flatMap_congr
  intro gate hmem
  have hle := of_decide_eq_true (List.mem_filter.mp hmem).2
  rw [startLevel_eq hwell hgates hle]

/-- What is opened in the beginning is all up to the frontier. -/
theorem startGates_eq_take_frontier (experience : Experience) :
    curriculum.gates.takeWhile
        (fun gate => decide (gate.number ≤ startGate curriculum experience)) =
      curriculum.gates.take (curriculum.startFrontier experience) := by
  obtain ⟨count, hone, hcount, hopens⟩ :=
    startGates_eq_take hwell hgates (one_le_startGate experience)
  have hbounds := startFrontier_bounds hwell hgates experience
  have hsame : ∀ n, 1 ≤ n → n ≤ curriculum.gates.length →
      (n ≤ count ↔ n ≤ curriculum.startFrontier experience) := by
    intro n hpos hle
    obtain ⟨gate, hgate, rfl⟩ := hwell.exists_gate_iff.mpr ⟨hpos, hle⟩
    rw [← hwell.mem_take_iff hcount hgate, ← hopens, startGates_eq_filter hwell,
      toNat_startGate hwell hgates, List.mem_filter, decide_eq_true_iff]
    exact and_iff_right hgate
  have hbelow := (hsame count hone hcount).mp (Nat.le_refl count)
  have habove := (hsame _ hbounds.1 hbounds.2).mpr (Nat.le_refl _)
  rw [hopens, Nat.le_antisymm hbelow habove]

theorem find?_startRows_eq_some_iff {experience : Experience} {id : String} {row : Backfill} :
    (startRows curriculum (startGate curriculum experience)).find? (·.skill = id) = some row ↔
      ∃ gate ∈ curriculum.gates, gate.number.toNat ≤ curriculum.startFrontier experience ∧
        id ∈ gate.skillIds ∧
          { skill := id
            gate := gate.number
            level := .behind (curriculum.startFrontier experience) gate.number.toNat } = row := by
  have hmem : ∀ row : Backfill,
      row ∈ startRows curriculum (startGate curriculum experience) ∧ row.skill = id ↔
        ∃ gate ∈ curriculum.gates, gate.number.toNat ≤ curriculum.startFrontier experience ∧
          id ∈ gate.skillIds ∧
            { skill := id
              gate := gate.number
              level := .behind (curriculum.startFrontier experience) gate.number.toNat } = row := by
    intro row
    rw [startRows_eq hwell hgates experience]
    simp only [List.mem_flatMap, List.mem_filter, List.mem_map, decide_eq_true_iff]
    constructor
    · rintro ⟨⟨gate, ⟨hgate, hle⟩, other, hother, rfl⟩, rfl⟩
      exact ⟨gate, hgate, hle, hother, rfl⟩
    · rintro ⟨gate, hgate, hle, hid, rfl⟩
      exact ⟨⟨gate, ⟨hgate, hle⟩, id, hid, rfl⟩, rfl⟩
  rw [← hmem]
  constructor
  · intro hfound
    have hskill := List.find?_some hfound
    exact ⟨List.mem_of_find?_eq_some hfound, by simpa using hskill⟩
  · rintro ⟨hrow, rfl⟩
    exact Curriculum.find?_key_eq Backfill.skill (nodup_startRows hwell _) hrow

/-- Onboarding a record that is new always works, and gives what a new player starts with. -/
theorem exists_starts (player : String) (experience : Experience) (now : Instant) :
    ∃ record rows, (fresh player now).onboard? curriculum experience now = some (record, rows) ∧
      record.Starts rows curriculum player experience now := by
  have honboard : ∃ record, (fresh player now).onboard? curriculum experience now =
        some (record, startRows curriculum (startGate curriculum experience)) ∧
      record.player = player ∧ record.onboarded = some experience := by
    refine ⟨_, if_neg (by simp [fresh]), ?_, rfl⟩
    exact player_of_onboard? _ curriculum now (if_neg (by simp [fresh]))
  obtain ⟨record, honboard, hplayer, honboarded⟩ := honboard
  have hbounds := startFrontier_bounds hwell hgates experience
  have hopened := opened_of_onboard? hwell hbounds.2
    (startGates_eq_take_frontier hwell hgates experience) honboard
  have hrows := startRows_eq hwell hgates experience
  refine ⟨record, _, honboard, hplayer, honboarded, fun gate => hopened.isUnlocked_iff, ?_, hrows⟩
  intro id row
  have hfresh : (fresh player now).row? id = none := ExtTreeMap.getElem?_empty
  rw [row?_of_onboard? honboard, row?_addRows, hfresh, Option.none_or, Option.map_eq_some_iff]
  simp only [find?_startRows_eq_some_iff hwell hgates]
  constructor
  · rintro ⟨_, ⟨gate, hgate, hle, hid, rfl⟩, rfl⟩
    exact ⟨gate, hgate, hle, hid, rfl⟩
  · rintro ⟨gate, hgate, hle, hid, rfl⟩
    exact ⟨_, ⟨gate, hgate, hle, hid, rfl⟩, rfl⟩

end Start

end PlayerRecord

end PokerCoach
