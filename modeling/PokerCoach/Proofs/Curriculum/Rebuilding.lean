import PokerCoach.Proofs.Curriculum.Acceptance
import Mathlib.Algebra.Group.Nat.Defs

/-!
# Curricula built again

A curriculum holds the skills of its syllabus, sorted into their gates. In which order the syllabus
names skills and gates makes no difference to it, so that the syllabus of a curriculum, which names
them in the order of the curriculum, gives the curriculum back.
-/

namespace PokerCoach

/-! ### What determines a curriculum -/

/-- Lists that show the same keys are the same if entries with the same key are. -/
theorem eq_of_map_key_eq {α κ : Type} (key : α → κ) {first second : List α}
    (hkeys : first.map key = second.map key)
    (hsame : ∀ a ∈ first, ∀ b ∈ second, key a = key b → a = b) : first = second := by
  induction first generalizing second with
  | nil => exact (List.map_eq_nil_iff.mp hkeys.symm).symm
  | cons a rest ih =>
      cases second with
      | nil => cases hkeys
      | cons b others =>
          rw [List.map_cons, List.map_cons, List.cons.injEq] at hkeys
          have hhead : a = b := hsame a List.mem_cons_self b List.mem_cons_self hkeys.1
          have htail : rest = others := ih hkeys.2 fun x hx y hy =>
            hsame x (List.mem_cons_of_mem a hx) y (List.mem_cons_of_mem b hy)
          rw [hhead, htail]

theorem Gate.eq_of_outline_eq {gate other : Gate} (houtline : gate.outline = other.outline)
    (hsame : ∀ a ∈ gate.skills, ∀ b ∈ other.skills, a.id = b.id → a = b) : gate = other := by
  simp only [outline, GateOutline.mk.injEq] at houtline
  obtain ⟨hnumber, hname, hids, hrequired⟩ := houtline
  have hskills : gate.skills = other.skills := eq_of_map_key_eq Skill.id hids hsame
  cases gate
  cases other
  simp_all only

namespace Curriculum

/-- Outlines say which skills a gate teaches but not what they are. -/
theorem eq_of_outlines_eq {curriculum other : Curriculum}
    (houtlines : curriculum.gates.map Gate.outline = other.gates.map Gate.outline)
    (hsame : ∀ a ∈ curriculum.skills, ∀ b ∈ other.skills, a.id = b.id → a = b) :
    curriculum = other := by
  have hgates : curriculum.gates = other.gates := by
    apply eq_of_map_key_eq Gate.outline houtlines
    intro gate hgate gate' hgate' houtline
    apply Gate.eq_of_outline_eq houtline
    intro a ha b hb
    have ha : a ∈ curriculum.skills := List.mem_flatMap.mpr ⟨gate, hgate, ha⟩
    have hb : b ∈ other.skills := List.mem_flatMap.mpr ⟨gate', hgate', hb⟩
    exact hsame a ha b hb
  exact congrArg Curriculum.mk hgates

end Curriculum

/-! ### The order of a syllabus -/

namespace Syllabus

variable {syllabus other : Syllabus} {curriculum : Curriculum}

theorem sortGates_eq_of_perm {gates others : List GateOutline}
    (hdistinct : (gates.map GateOutline.number).Nodup) (hperm : others.Perm gates) :
    sortGates others = sortGates gates := by
  refine List.Perm.eq_of_pairwise ?_ (pairwise_sortGates others) (pairwise_sortGates gates)
    ((perm_sortGates others).trans (hperm.trans (perm_sortGates gates).symm))
  intro a b ha hb hab hba
  have hnumber : a.number = b.number := UInt32.toNat_inj.mp (Nat.le_antisymm hab hba)
  refine List.inj_on_of_nodup_map hdistinct ?_ ((perm_sortGates gates).mem_iff.mp hb) hnumber
  exact hperm.mem_iff.mp ((perm_sortGates others).mem_iff.mp ha)

theorem Consistent.of_perm (hconsistent : syllabus.Consistent)
    (hskills : other.skills.Perm syllabus.skills) (hgates : other.gates.Perm syllabus.gates) :
    other.Consistent where
  rules skill hskill := hconsistent.rules skill (hskills.mem_iff.mp hskill)
  distinctSkills := (hskills.map Skill.id).nodup_iff.mpr hconsistent.distinctSkills
  distinctGates := (hgates.map GateOutline.number).nodup_iff.mpr hconsistent.distinctGates
  numbers n := by
    simp only [hgates.mem_iff, hgates.length_eq]
    exact hconsistent.numbers n
  required gate hgate := hconsistent.required gate (hgates.mem_iff.mp hgate)
  defined gate hgate id hid := by
    simp only [hskills.mem_iff]
    exact hconsistent.defined gate (hgates.mem_iff.mp hgate) id hid
  once := (hgates.flatMap_right GateOutline.skills).nodup_iff.mpr hconsistent.once
  owner gate hgate id hid skill hskill :=
    hconsistent.owner gate (hgates.mem_iff.mp hgate) id hid skill (hskills.mem_iff.mp hskill)
  listed skill hskill := by
    simp only [hgates.mem_iff]
    exact hconsistent.listed skill (hskills.mem_iff.mp hskill)

section Built

variable (hbuilt : syllabus.curriculum = .ok curriculum)
include hbuilt

theorem outlines_of_curriculum : curriculum.gates.map Gate.outline = sortGates syllabus.gates := by
  obtain ⟨-, -, -, hlisted, -⟩ := curriculum_eq_ok_iff.mp hbuilt
  exact (listGates_ok hlisted).1

theorem perm_skills_of_curriculum : curriculum.skills.Perm syllabus.skills := by
  obtain ⟨-, -, -, hlisted, -⟩ := curriculum_eq_ok_iff.mp hbuilt
  obtain ⟨houtlines, hdefined, -, -⟩ := listGates_ok hlisted
  have hconsistent := consistent_of_curriculum hbuilt
  have hsub : ∀ skill ∈ curriculum.skills, skill ∈ syllabus.skills := by
    intro skill hmem
    obtain ⟨gate, hgate, hskill⟩ := List.mem_flatMap.mp hmem
    exact (hdefined gate hgate skill hskill).1
  have hwell := wellFormed_of_curriculum hbuilt
  apply (List.perm_ext_iff_of_nodup hwell.nodup.of_map hconsistent.distinctSkills.of_map).mpr
  intro skill
  refine ⟨hsub skill, fun hskill => ?_⟩
  -- The gate that lists the skill has taken up one of its identifier, and there is only one.
  obtain ⟨outline, houtline, hid⟩ := hconsistent.listed skill hskill
  rw [← (perm_sortGates syllabus.gates).mem_iff, ← houtlines] at houtline
  obtain ⟨gate, hgate, rfl⟩ := List.mem_map.mp houtline
  obtain ⟨listed, hlisted, hsame⟩ := List.mem_map.mp hid
  have hmem : listed ∈ curriculum.skills := List.mem_flatMap.mpr ⟨gate, hgate, hlisted⟩
  rwa [← List.inj_on_of_nodup_map hconsistent.distinctSkills (hsub listed hmem) hskill hsame]

theorem curriculum_eq_of_perm (hskills : other.skills.Perm syllabus.skills)
    (hgates : other.gates.Perm syllabus.gates) : other.curriculum = .ok curriculum := by
  have hconsistent := consistent_of_curriculum hbuilt
  obtain ⟨rebuilt, hrebuilt⟩ := (hconsistent.of_perm hskills hgates).exists_curriculum
  have heq : rebuilt = curriculum := by
    apply Curriculum.eq_of_outlines_eq
    · rw [outlines_of_curriculum hrebuilt, outlines_of_curriculum hbuilt,
        sortGates_eq_of_perm hconsistent.distinctGates hgates]
    · intro a ha b hb
      have ha := hskills.mem_iff.mp ((perm_skills_of_curriculum hrebuilt).mem_iff.mp ha)
      have hb := (perm_skills_of_curriculum hbuilt).mem_iff.mp hb
      exact List.inj_on_of_nodup_map hconsistent.distinctSkills ha hb
  rw [hrebuilt, heq]

end Built

end Syllabus

/-! ### Skills by their gates -/

namespace Curriculum.WellFormed

variable {curriculum : Curriculum} (hwell : curriculum.WellFormed)
include hwell

theorem pairwise_gate_le :
    curriculum.skills.Pairwise fun earlier later => earlier.gate ≤ later.gate := by
  have hnumbers : (curriculum.gates.map (·.number.toNat)).Pairwise (· < ·) :=
    hwell.numbers ▸ List.pairwise_lt_range'
  refine List.pairwise_flatMap.mpr ⟨fun gate hgate => ?_, ?_⟩
  · apply List.pairwise_of_forall_mem_list
    intro a ha b hb
    rw [hwell.owner gate hgate a ha, hwell.owner gate hgate b hb]
    exact UInt32.le_refl gate.number
  · refine (List.pairwise_map.mp hnumbers).imp_of_mem ?_
    intro gate later hgate hlater hlt a ha b hb
    rw [hwell.owner gate hgate a ha, hwell.owner later hlater b hb]
    exact UInt32.le_iff_toNat_le.mpr (Nat.le_of_lt hlt)

theorem filter_gate_eq {gate : Gate} (hgate : gate ∈ curriculum.gates) :
    (curriculum.skills.filter fun skill => skill.gate = gate.number) = gate.skills := by
  obtain ⟨before, after, hsplit⟩ := List.append_of_mem hgate
  have hothers : ∀ other ∈ before ++ after,
      other ∈ curriculum.gates ∧ other.number ≠ gate.number := by
    have hnodup := hwell.nodup_numbers
    rw [hsplit, List.map_append, List.map_cons, List.nodup_middle, List.nodup_cons] at hnodup
    intro other hother
    refine ⟨?_, fun hsame => hnodup.1 ?_⟩
    · rw [hsplit]
      simp only [List.mem_append, List.mem_cons] at hother ⊢
      tauto
    · rw [← List.map_append, ← hsame]
      exact List.mem_map_of_mem hother
  have hnone (others : List Gate) (hsub : ∀ other ∈ others, other ∈ before ++ after) :
      ((others.flatMap Gate.skills).filter fun skill => skill.gate = gate.number) = [] := by
    refine List.filter_eq_nil_iff.mpr fun skill hskill => ?_
    obtain ⟨other, hother, hmem⟩ := List.mem_flatMap.mp hskill
    obtain ⟨hin, hne⟩ := hothers other (hsub other hother)
    rwa [decide_eq_true_iff, hwell.owner other hin skill hmem]
  rw [skills, hsplit, List.flatMap_append, List.flatMap_cons, List.filter_append,
    List.filter_append, hnone before fun _ => List.mem_append_left after,
    hnone after fun _ => List.mem_append_right before, List.nil_append, List.append_nil]
  apply List.filter_eq_self.mpr
  intro skill hskill
  exact decide_eq_true (hwell.owner gate hgate skill hskill)

theorem gateOf?_eq_some_iff {id : String} {gate : Gate} :
    curriculum.gateOf? id = some gate ↔ gate ∈ curriculum.gates ∧ id ∈ gate.skillIds := by
  constructor
  · intro hgate
    obtain ⟨skill, hskill, hfound⟩ := Option.bind_eq_some_iff.mp hgate
    obtain ⟨hmem, rfl⟩ := skill?_eq_some hskill
    obtain ⟨owner, howner, htaught, -⟩ := hwell.exists_gate_of_skill hmem
    rw [hwell.gateOf?_eq howner htaught] at hgate
    cases hgate
    exact ⟨howner, List.mem_map_of_mem htaught⟩
  · rintro ⟨hgate, hid⟩
    obtain ⟨skill, hskill, rfl⟩ := List.mem_map.mp hid
    exact hwell.gateOf?_eq hgate hskill

theorem isSome_gateOf?_iff {id : String} :
    (curriculum.gateOf? id).isSome = true ↔ ∃ skill ∈ curriculum.skills, skill.id = id := by
  rw [Option.isSome_iff_exists]
  simp only [hwell.gateOf?_eq_some_iff]
  constructor
  · rintro ⟨gate, hgate, hid⟩
    obtain ⟨skill, hskill, rfl⟩ := List.mem_map.mp hid
    exact ⟨skill, List.mem_flatMap.mpr ⟨gate, hgate, hskill⟩, rfl⟩
  · rintro ⟨skill, hskill, rfl⟩
    obtain ⟨gate, hgate, htaught⟩ := List.mem_flatMap.mp hskill
    exact ⟨gate, hgate, List.mem_map_of_mem htaught⟩

theorem isSome_nextGate?_iff {number : UInt32} (hnumber : number.toNat + 1 < UInt32.size) :
    (curriculum.nextGate? number).isSome = true ↔
      number.toNat + 1 ≤ curriculum.lastGate.toNat := by
  have hnext : (number + 1).toNat = number.toNat + 1 := by
    rw [UInt32.toNat_add]
    exact Nat.mod_eq_of_lt hnumber
  rw [hwell.toNat_lastGate, Option.isSome_iff_exists]
  constructor
  · rintro ⟨next, hfound⟩
    obtain ⟨hmem, hnumber⟩ := hwell.nextGate?_eq_some hfound
    exact hnumber ▸ (hwell.number_le hmem).2
  · intro hle
    obtain ⟨next, hmem, hsame⟩ := hwell.exists_gate_iff.mpr ⟨Nat.le_add_left 1 _, hle⟩
    refine ⟨next, ?_⟩
    rw [nextGate?, ← UInt32.toNat_inj.mp (hsame.trans hnext.symm)]
    exact hwell.gate?_eq hmem

/-! ### Curricula without a syllabus -/

theorem sortGates_outlines :
    Syllabus.sortGates (curriculum.gates.map Gate.outline) = curriculum.gates.map Gate.outline := by
  have hnumbers : (curriculum.gates.map (·.number.toNat)).Pairwise (· < ·) :=
    hwell.numbers ▸ List.pairwise_lt_range'
  apply List.mergeSort_of_pairwise
  refine List.pairwise_map.mpr ((List.pairwise_map.mp hnumbers).imp fun hlt => ?_)
  exact decide_eq_true (UInt32.le_iff_toNat_le.mpr (Nat.le_of_lt hlt))

section Rules

variable (hrules : ∀ skill ∈ curriculum.skills, skill.evidence.fault? = none)
  (hrequired : ∀ gate ∈ curriculum.gates, gate.requiredReliable.toNat ≤ gate.skills.length)
include hrules hrequired

theorem consistent_syllabus : curriculum.syllabus.Consistent where
  rules := hrules
  distinctSkills := hwell.nodup
  distinctGates := by
    have hnodup := hwell.nodup_numbers
    rwa [syllabus, List.map_map]
  numbers n := by
    simp only [syllabus, List.length_map, ← hwell.exists_gate_iff, List.mem_map]
    constructor
    · rintro ⟨_, ⟨gate, hgate, rfl⟩, hnumber⟩
      exact ⟨gate, hgate, hnumber⟩
    · rintro ⟨gate, hgate, hnumber⟩
      exact ⟨gate.outline, ⟨gate, hgate, rfl⟩, hnumber⟩
  required := by
    simp only [syllabus, List.forall_mem_map, Gate.outline, Gate.skillIds, List.length_map]
    exact hrequired
  defined := by
    simp only [syllabus, List.forall_mem_map]
    intro gate hgate id hid
    obtain ⟨skill, hskill, hname⟩ := List.mem_map.mp hid
    exact ⟨skill, List.mem_flatMap.mpr ⟨gate, hgate, hskill⟩, hname⟩
  once := by
    have hnodup := hwell.nodup
    rw [skills, List.map_flatMap] at hnodup
    rwa [syllabus, List.flatMap_map]
  owner := by
    simp only [syllabus, List.forall_mem_map]
    intro gate hgate id hid skill hskill hname
    obtain ⟨listed, hlisted, rfl⟩ := List.mem_map.mp hid
    have hmem : listed ∈ curriculum.skills := List.mem_flatMap.mpr ⟨gate, hgate, hlisted⟩
    rw [hwell.eq_of_id_eq hskill hmem hname]
    exact hwell.owner gate hgate listed hlisted
  listed skill hskill := by
    obtain ⟨gate, hgate, hmem, -⟩ := hwell.exists_gate_of_skill hskill
    exact ⟨gate.outline, List.mem_map_of_mem hgate, List.mem_map_of_mem hmem⟩

/-- A curriculum that is well-formed is accepted, as its own syllabus gives it back. -/
theorem accepted : curriculum.Accepted := by
  obtain ⟨rebuilt, hbuilt⟩ := (hwell.consistent_syllabus hrules hrequired).exists_curriculum
  have houtlines := Syllabus.outlines_of_curriculum hbuilt
  rw [syllabus, hwell.sortGates_outlines] at houtlines
  have hsame : rebuilt = curriculum := by
    apply eq_of_outlines_eq houtlines
    intro a ha b hb hid
    exact hwell.eq_of_id_eq ((Syllabus.perm_skills_of_curriculum hbuilt).mem_iff.mp ha) hb hid
  exact .inr ⟨curriculum.syllabus, hsame ▸ hbuilt⟩

end Rules

end Curriculum.WellFormed

namespace Curriculum

theorem ofSyllabus_eq_ok_iff {syllabus : Syllabus} {curriculum : Curriculum} :
    ofSyllabus syllabus = .ok curriculum ↔ syllabus.curriculum = .ok curriculum := by
  unfold ofSyllabus
  cases syllabus.curriculum <;> simp

/-- Every skill of the syllabus stands in the curriculum once: by ascending gates, and in each gate
as its list has them. A skill is looked up to the gate that lists it, and a number to the gate after
it. The order of the syllabus does not matter, so that the curriculum written down again is built
again. -/
theorem ofSyllabus_partitions_and_round_trips {syllabus : Syllabus} {curriculum : Curriculum}
    (hbuilt : ofSyllabus syllabus = .ok curriculum) :
    (curriculum.skills.Perm syllabus.skills ∧
      (curriculum.skills.map Skill.id).Nodup ∧
      curriculum.skills.length = curriculum.skillCount ∧
      curriculum.skillCount = syllabus.skills.length ∧
      (curriculum.skills.Pairwise fun earlier later => earlier.gate ≤ later.gate) ∧
      ∀ outline ∈ syllabus.gates,
        (curriculum.skills.filter fun skill => skill.gate = outline.number).map Skill.id =
          outline.skills) ∧
    (curriculum.gates.map Gate.outline).Perm syllabus.gates ∧
    (∀ id gate, curriculum.gateOf? id = some gate ↔ gate ∈ curriculum.gates ∧ id ∈ gate.skillIds) ∧
    (∀ id, (curriculum.gateOf? id).isSome = true ↔ ∃ skill ∈ syllabus.skills, skill.id = id) ∧
    (∀ number : UInt32, number.toNat < 2 ^ 32 - 1 →
      ((curriculum.nextGate? number).isSome = true ↔
        number.toNat + 1 ≤ curriculum.lastGate.toNat) ∧
      ∀ next, curriculum.nextGate? number = some next →
        next.number.toNat = number.toNat + 1) ∧
    ofSyllabus curriculum.syllabus = .ok curriculum ∧
    ∀ other : Syllabus, other.skills.Perm syllabus.skills → other.gates.Perm syllabus.gates →
      ofSyllabus other = .ok curriculum := by
  rw [ofSyllabus_eq_ok_iff] at hbuilt
  have hwell := Syllabus.wellFormed_of_curriculum hbuilt
  have hskills := Syllabus.perm_skills_of_curriculum hbuilt
  have hgates : (curriculum.gates.map Gate.outline).Perm syllabus.gates := by
    rw [Syllabus.outlines_of_curriculum hbuilt]
    exact Syllabus.perm_sortGates syllabus.gates
  have hreordered (other : Syllabus) (hperm : other.skills.Perm syllabus.skills)
      (hperm' : other.gates.Perm syllabus.gates) : ofSyllabus other = .ok curriculum :=
    ofSyllabus_eq_ok_iff.mpr (Syllabus.curriculum_eq_of_perm hbuilt hperm hperm')
  refine ⟨⟨hskills, hwell.nodup, rfl, hskills.length_eq, hwell.pairwise_gate_le,
      fun outline houtline => ?_⟩, hgates, fun id gate => hwell.gateOf?_eq_some_iff, fun id => ?_,
    fun number hnumber => ⟨?_, fun next hnext => (hwell.nextGate?_eq_some hnext).2⟩,
    hreordered curriculum.syllabus hskills hgates, hreordered⟩
  · obtain ⟨gate, hgate, rfl⟩ := List.mem_map.mp (hgates.mem_iff.mpr houtline)
    exact congrArg (List.map Skill.id) (hwell.filter_gate_eq hgate)
  · rw [hwell.isSome_gateOf?_iff]
    simp only [hskills.mem_iff]
  · apply hwell.isSome_nextGate?_iff
    rw [UInt32.size]
    omega

/-- The standard curriculum from a syllabus that names gates and skills from the last to the
first. -/
theorem ofSyllabus_partitions_and_round_trips_backwards :
    let backwards : Syllabus :=
      { gates := standard.syllabus.gates.reverse, skills := standard.syllabus.skills.reverse }
    ofSyllabus backwards = .ok standard ∧
      (standard.gateOf? "follow_through").isSome = true ∧
      ofSyllabus standard.syllabus = .ok standard := by
  intro backwards
  have hsorted : Syllabus.sortGates backwards.gates = standard.syllabus.gates := by
    simp [backwards, standard, syllabus, Gate.outline, Gate.skillIds, Syllabus.sortGates,
      List.mergeSort]
  have hbuilt : ofSyllabus backwards = .ok standard := by
    refine ofSyllabus_eq_ok_iff.mpr (Syllabus.curriculum_eq_ok_iff.mpr ⟨?_, ?_, ?_, ?_, ?_⟩)
    · decide +kernel
    · decide +kernel
    · rw [hsorted]
      decide +kernel
    · rw [hsorted]
      rfl
    · rfl
  obtain ⟨-, -, -, hdefined, -, hagain, -⟩ := ofSyllabus_partitions_and_round_trips hbuilt
  refine ⟨hbuilt, (hdefined "follow_through").mpr ⟨.followThrough, ?_, rfl⟩, hagain⟩
  exact List.mem_reverse.mpr (List.mem_flatMap.mpr
    ⟨_, .tail _ (.head _), .tail _ (.tail _ (.head _))⟩)

end Curriculum

end PokerCoach
