import PokerCoach.Curriculum.Standard
import PokerCoach.Proofs.Curriculum.Building

/-!
# Well-formed curricula

What building checks, as facts about the curriculum that comes out. From them every lookup by number
or by identifier finds the one gate or skill that there is.
-/

namespace PokerCoach

namespace Curriculum

/-- A curriculum that an engine can be given. -/
def Accepted (curriculum : Curriculum) : Prop :=
  curriculum = .standard ∨ ∃ syllabus : Syllabus, syllabus.curriculum = .ok curriculum

structure WellFormed (curriculum : Curriculum) : Prop where
  numbers : curriculum.gates.map (·.number.toNat) = List.range' 1 curriculum.gates.length
  owner : ∀ gate ∈ curriculum.gates, ∀ skill ∈ gate.skills, skill.gate = gate.number
  nodup : (curriculum.skills.map Skill.id).Nodup
  window : ∀ skill ∈ curriculum.skills, skill.evidence.windowSize ≠ 0

instance (curriculum : Curriculum) : Decidable curriculum.WellFormed :=
  decidable_of_iff
    (curriculum.gates.map (·.number.toNat) = List.range' 1 curriculum.gates.length ∧
      (∀ gate ∈ curriculum.gates, ∀ skill ∈ gate.skills, skill.gate = gate.number) ∧
      (curriculum.skills.map Skill.id).Nodup ∧
      ∀ skill ∈ curriculum.skills, skill.evidence.windowSize ≠ 0)
    ⟨fun ⟨hnumbers, howner, hnodup, hwindow⟩ => ⟨hnumbers, howner, hnodup, hwindow⟩,
      fun hwell => ⟨hwell.numbers, hwell.owner, hwell.nodup, hwell.window⟩⟩

end Curriculum

/-! ### What building checks -/

namespace EvidenceRule

theorem windowSize_ne_zero_of_fault? {rule : EvidenceRule Float} (hfault : rule.fault? = none) :
    rule.windowSize ≠ 0 := by
  intro hzero
  unfold fault? at hfault
  dsimp only at hfault
  split at hfault
  · cases hfault
  · cases hfault

end EvidenceRule

namespace Syllabus

theorem wellFormed_of_curriculum {syllabus : Syllabus} {curriculum : Curriculum}
    (hbuilt : syllabus.curriculum = .ok curriculum) : curriculum.WellFormed := by
  obtain ⟨hskills, -, hnumbers, hlisted, -⟩ := curriculum_eq_ok_iff.mp hbuilt
  obtain ⟨houtlines, hgates, hnodup, -⟩ := listGates_ok hlisted
  refine ⟨?_, fun gate hgate skill hskill => (hgates gate hgate skill hskill).2, ?_, ?_⟩
  · have hrange := numberFault?_eq_none_iff.mp hnumbers
    rw [← houtlines, List.map_map, List.length_map] at hrange
    exact hrange
  · rw [← houtlines, List.flatMap_map] at hnodup
    rw [Curriculum.skills, List.map_flatMap]
    exact hnodup
  · intro skill hmem
    obtain ⟨gate, hgate, hskill⟩ := List.mem_flatMap.mp hmem
    have hlisted := (hgates gate hgate skill hskill).1
    exact EvidenceRule.windowSize_ne_zero_of_fault?
      ((skillFault?_eq_none_iff.mp hskills).1 skill hlisted)

end Syllabus

namespace Curriculum

theorem wellFormed_standard : Curriculum.standard.WellFormed := by decide

theorem Accepted.wellFormed {curriculum : Curriculum} (haccepted : curriculum.Accepted) :
    curriculum.WellFormed := by
  rcases haccepted with rfl | ⟨syllabus, hbuilt⟩
  · exact wellFormed_standard
  · exact Syllabus.wellFormed_of_curriculum hbuilt

/-! ### Lookups -/

/-- Searching by a key that no two entries share finds the entry. -/
theorem find?_key_eq {α κ : Type} [BEq κ] [LawfulBEq κ] (key : α → κ) {entries : List α}
    (hnodup : (entries.map key).Nodup) {entry : α} (hmem : entry ∈ entries) :
    entries.find? (key · == key entry) = some entry := by
  induction entries with
  | nil => cases hmem
  | cons first rest ih =>
      rw [List.map_cons, List.nodup_cons] at hnodup
      rcases List.mem_cons.mp hmem with rfl | hrest
      · simp
      · have hne : key first ≠ key entry := fun heq =>
          hnodup.1 (heq ▸ List.mem_map_of_mem hrest)
        rw [List.find?_cons_of_neg (by simpa using hne)]
        exact ih hnodup.2 hrest

theorem gate?_eq_some {curriculum : Curriculum} {number : UInt32} {gate : Gate}
    (hgate : curriculum.gate? number = some gate) :
    gate ∈ curriculum.gates ∧ gate.number = number :=
  ⟨List.mem_of_find?_eq_some hgate, by simpa using List.find?_some hgate⟩

theorem skill?_eq_some {curriculum : Curriculum} {id : String} {skill : Skill}
    (hskill : curriculum.skill? id = some skill) : skill ∈ curriculum.skills ∧ skill.id = id :=
  ⟨List.mem_of_find?_eq_some hskill, by simpa using List.find?_some hskill⟩

theorem gateOf?_eq_some {curriculum : Curriculum} {id : String} {skill : Skill} {gate : Gate}
    (hgate : curriculum.gateOf? id = some gate) (hskill : curriculum.skill? id = some skill) :
    gate ∈ curriculum.gates ∧ gate.number = skill.gate := by
  rw [gateOf?, hskill, Option.bind_some] at hgate
  exact gate?_eq_some hgate

namespace WellFormed

variable {curriculum : Curriculum} (hwell : curriculum.WellFormed)
include hwell

theorem nodup_numbers : (curriculum.gates.map Gate.number).Nodup := by
  have hrange : (curriculum.gates.map (·.number.toNat)).Nodup :=
    hwell.numbers ▸ List.nodup_range'
  refine List.Nodup.of_map UInt32.toNat ?_
  rwa [List.map_map]

theorem gate?_eq {gate : Gate} (hgate : gate ∈ curriculum.gates) :
    curriculum.gate? gate.number = some gate :=
  find?_key_eq Gate.number hwell.nodup_numbers hgate

theorem skill?_eq {skill : Skill} (hskill : skill ∈ curriculum.skills) :
    curriculum.skill? skill.id = some skill :=
  find?_key_eq Skill.id hwell.nodup hskill

theorem eq_of_id_eq {skill other : Skill} (hskill : skill ∈ curriculum.skills)
    (hother : other ∈ curriculum.skills) (hid : skill.id = other.id) : skill = other := by
  have hfind := hwell.skill?_eq hskill
  rw [hid, hwell.skill?_eq hother] at hfind
  exact (Option.some.inj hfind).symm

theorem gateOf?_eq {gate : Gate} {skill : Skill} (hgate : gate ∈ curriculum.gates)
    (hskill : skill ∈ gate.skills) : curriculum.gateOf? skill.id = some gate := by
  have hmem : skill ∈ curriculum.skills := List.mem_flatMap.mpr ⟨gate, hgate, hskill⟩
  simp [gateOf?, hwell.skill?_eq hmem, hwell.owner gate hgate skill hskill, hwell.gate?_eq hgate]

/-- The numbers of the gates are 1, 2 and so on up to how many there are. -/
theorem exists_gate_iff {n : Nat} :
    (∃ gate ∈ curriculum.gates, gate.number.toNat = n) ↔ 1 ≤ n ∧ n ≤ curriculum.gates.length := by
  have hmem : n ∈ curriculum.gates.map (·.number.toNat) ↔
      1 ≤ n ∧ n ≤ curriculum.gates.length := by
    rw [hwell.numbers, List.mem_range'_1]
    omega
  rwa [List.mem_map] at hmem

theorem number_le {gate : Gate} (hgate : gate ∈ curriculum.gates) :
    1 ≤ gate.number.toNat ∧ gate.number.toNat ≤ curriculum.gates.length :=
  hwell.exists_gate_iff.mp ⟨gate, hgate, rfl⟩

/-! The first few gates are those with the lowest numbers. -/

theorem numbers_take {count : Nat} (hcount : count ≤ curriculum.gates.length) :
    (curriculum.gates.take count).map (·.number.toNat) = List.range' 1 count := by
  rw [List.map_take, hwell.numbers, List.take_range'_of_length_ge hcount]

theorem mem_take_iff {count : Nat} (hcount : count ≤ curriculum.gates.length) {gate : Gate}
    (hgate : gate ∈ curriculum.gates) :
    gate ∈ curriculum.gates.take count ↔ gate.number.toNat ≤ count := by
  have hmem : gate.number.toNat ∈ (curriculum.gates.take count).map (·.number.toNat) ↔
      1 ≤ gate.number.toNat ∧ gate.number.toNat < 1 + count := by
    rw [hwell.numbers_take hcount, List.mem_range'_1]
  have hpos := (hwell.number_le hgate).1
  constructor
  · intro htake
    have hbounds := hmem.mp (List.mem_map_of_mem htake)
    omega
  · intro hle
    obtain ⟨other, hother, hsame⟩ := List.mem_map.mp (hmem.mpr ⟨hpos, by omega⟩)
    have hfound := hwell.gate?_eq (List.mem_of_mem_take hother)
    rw [UInt32.toNat_inj.mp hsame, hwell.gate?_eq hgate] at hfound
    cases hfound
    exact hother

theorem exists_gate_of_skill {skill : Skill} (hskill : skill ∈ curriculum.skills) :
    ∃ gate ∈ curriculum.gates, skill ∈ gate.skills ∧ skill.gate = gate.number := by
  obtain ⟨gate, hgate, hmem⟩ := List.mem_flatMap.mp hskill
  exact ⟨gate, hgate, hmem, hwell.owner gate hgate skill hmem⟩

/-- The number after the last gate is none of a gate, even where it wraps around. -/
theorem nextGate?_eq_some {number : UInt32} {next : Gate}
    (hnext : curriculum.nextGate? number = some next) :
    next ∈ curriculum.gates ∧ next.number.toNat = number.toNat + 1 := by
  obtain ⟨hmem, hnumber⟩ := gate?_eq_some hnext
  refine ⟨hmem, ?_⟩
  have hpos := (hwell.number_le hmem).1
  have hlt := number.toNat_lt
  rw [hnumber, UInt32.toNat_add] at hpos ⊢
  simp only [UInt32.toNat_one] at hpos ⊢
  omega

theorem toNat_lastGate : curriculum.lastGate.toNat = curriculum.gates.length := by
  have hlast := congrArg List.getLast? hwell.numbers
  rw [List.getLast?_map] at hlast
  cases hgates : curriculum.gates.getLast? with
  | none => simp [lastGate, List.getLast?_eq_none_iff.mp hgates]
  | some gate =>
      rw [hgates, List.getLast?_range'] at hlast
      have hmem := List.mem_of_getLast? hgates
      have hpos : curriculum.gates.length ≠ 0 :=
        Nat.ne_of_gt (List.length_pos_of_mem hmem)
      simp only [Option.map_some, hpos, if_false, Option.some.injEq] at hlast
      simp only [lastGate, hgates, Option.map_some, Option.getD_some, hlast]
      omega

end WellFormed

end Curriculum

end PokerCoach
