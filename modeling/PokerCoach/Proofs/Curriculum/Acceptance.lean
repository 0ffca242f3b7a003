import PokerCoach.Curriculum.Load
import PokerCoach.Proofs.Curriculum.WellFormed

/-!
# Which curricula are accepted

What is asked of a syllabus, said without an order of skills or gates and without the passes that
check it. A curriculum is built from exactly the syllabi that are consistent.
-/

namespace PokerCoach

namespace Syllabus

/-- Gates are numbered from 1 without a gap, and skills and gates agree on who teaches what. -/
structure Consistent (syllabus : Syllabus) : Prop where
  rules : ∀ skill ∈ syllabus.skills, skill.evidence.fault? = none
  distinctSkills : (syllabus.skills.map Skill.id).Nodup
  distinctGates : (syllabus.gates.map GateOutline.number).Nodup
  numbers : ∀ n, (∃ gate ∈ syllabus.gates, gate.number.toNat = n) ↔
    1 ≤ n ∧ n ≤ syllabus.gates.length
  required : ∀ gate ∈ syllabus.gates, gate.requiredReliable.toNat ≤ gate.skills.length
  defined : ∀ gate ∈ syllabus.gates, ∀ id ∈ gate.skills, ∃ skill ∈ syllabus.skills, skill.id = id
  /-- No identifier stands in the lists of two gates or twice in one list. -/
  once : (syllabus.gates.flatMap GateOutline.skills).Nodup
  owner : ∀ gate ∈ syllabus.gates, ∀ id ∈ gate.skills, ∀ skill ∈ syllabus.skills, skill.id = id →
    skill.gate = gate.number
  listed : ∀ skill ∈ syllabus.skills, ∃ gate ∈ syllabus.gates, skill.id ∈ gate.skills

variable {syllabus : Syllabus}

theorem consistent_of_curriculum {curriculum : Curriculum}
    (hbuilt : syllabus.curriculum = .ok curriculum) : syllabus.Consistent := by
  obtain ⟨hskills, hgates, hnumbers, hlisted, hunlisted⟩ := curriculum_eq_ok_iff.mp hbuilt
  obtain ⟨hrules, hids, -⟩ := skillFault?_eq_none_iff.mp hskills
  obtain ⟨hrequired, -, -⟩ := gateFault?_eq_none_iff.mp hgates
  obtain ⟨hdistinct, hrange⟩ :=
    (numbers_sortGates_iff syllabus.gates).mp (numberFault?_eq_none_iff.mp hnumbers)
  obtain ⟨houtlines, howners, honce, -⟩ := listGates_ok hlisted
  have hperm := perm_sortGates syllabus.gates
  -- What an outline of the syllabus names is what a gate of the curriculum teaches.
  have htaught : ∀ outline ∈ syllabus.gates, ∀ id ∈ outline.skills,
      ∃ skill ∈ syllabus.skills, skill.id = id ∧ skill.gate = outline.number := by
    intro outline hmem id hid
    rw [← hperm.mem_iff, ← houtlines] at hmem
    obtain ⟨gate, hgate, rfl⟩ := List.mem_map.mp hmem
    obtain ⟨skill, hskill, rfl⟩ := List.mem_map.mp hid
    obtain ⟨hdefined, howner⟩ := howners gate hgate skill hskill
    exact ⟨skill, hdefined, rfl, howner⟩
  refine ⟨hrules, hids, hdistinct, hrange, hrequired, ?_, ?_, ?_, ?_⟩
  · intro outline hmem id hid
    obtain ⟨skill, hskill, hsame, -⟩ := htaught outline hmem id hid
    exact ⟨skill, hskill, hsame⟩
  · exact (hperm.flatMap_right GateOutline.skills).nodup_iff.mp honce
  · intro outline hmem id hid skill hskill hsame
    obtain ⟨other, hother, hagain, howner⟩ := htaught outline hmem id hid
    have heq := List.inj_on_of_nodup_map hids hskill hother (hsame.trans hagain.symm)
    exact heq ▸ howner
  · intro skill hskill
    have hmem := unlisted?_eq_none_iff.mp hunlisted skill hskill
    rw [houtlines] at hmem
    obtain ⟨outline, houtline, hid⟩ := List.mem_flatMap.mp hmem
    exact ⟨outline, hperm.mem_iff.mp houtline, hid⟩

theorem Consistent.exists_curriculum (hconsistent : syllabus.Consistent) :
    ∃ curriculum, syllabus.curriculum = .ok curriculum := by
  have hperm := perm_sortGates syllabus.gates
  have hfound : ∀ outline ∈ sortGates syllabus.gates, ∀ id ∈ outline.skills,
      ∃ skill, syllabus.skills.find? (·.id == id) = some skill ∧ skill.gate = outline.number := by
    intro outline hmem id hid
    have houtline := hperm.mem_iff.mp hmem
    obtain ⟨skill, hskill, rfl⟩ := hconsistent.defined outline houtline id hid
    have howner := hconsistent.owner outline houtline skill.id hid skill hskill rfl
    exact ⟨skill, Curriculum.find?_key_eq Skill.id hconsistent.distinctSkills hskill, howner⟩
  have honce : ((sortGates syllabus.gates).flatMap GateOutline.skills).Nodup :=
    (hperm.flatMap_right GateOutline.skills).nodup_iff.mpr hconsistent.once
  have hnew : ∀ id ∈ (sortGates syllabus.gates).flatMap GateOutline.skills,
      id ∉ List.map Prod.fst ([] : List (String × UInt32)) := fun _ _ => List.not_mem_nil
  obtain ⟨gates, hlisted⟩ := exists_listGates hfound honce hnew
  refine ⟨⟨gates⟩, curriculum_eq_ok_iff.mpr ⟨?_, ?_, ?_, hlisted, ?_⟩⟩
  · apply skillFault?_eq_none_iff.mpr
    exact ⟨hconsistent.rules, hconsistent.distinctSkills, fun _ _ => List.not_mem_nil⟩
  · apply gateFault?_eq_none_iff.mpr
    exact ⟨hconsistent.required, hconsistent.distinctGates, fun _ _ => List.not_mem_nil⟩
  · apply numberFault?_eq_none_iff.mpr
    exact (numbers_sortGates_iff _).mpr ⟨hconsistent.distinctGates, hconsistent.numbers⟩
  · apply unlisted?_eq_none_iff.mpr
    intro skill hskill
    obtain ⟨outline, houtline, hid⟩ := hconsistent.listed skill hskill
    rw [(listGates_ok hlisted).1]
    exact List.mem_flatMap.mpr ⟨outline, hperm.mem_iff.mpr houtline, hid⟩

end Syllabus

/-- A curriculum is accepted exactly if its syllabus is consistent, in whatever order it lists its
skills and gates; any other is refused as a bad definition. -/
theorem Curriculum.ofSyllabus_accepts_consistent (syllabus : Syllabus) :
    ((∃ curriculum, ofSyllabus syllabus = .ok curriculum) ↔ syllabus.Consistent) ∧
      ((∃ message, ofSyllabus syllabus = .error (.definition message)) ↔
        ¬ syllabus.Consistent) := by
  unfold ofSyllabus
  cases hbuilt : syllabus.curriculum with
  | ok curriculum =>
      have hconsistent := Syllabus.consistent_of_curriculum hbuilt
      simp [hconsistent]
  | error fault =>
      have hinconsistent : ¬ syllabus.Consistent := by
        intro hconsistent
        obtain ⟨curriculum, hok⟩ := hconsistent.exists_curriculum
        cases hok.symm.trans hbuilt
      simp [hinconsistent]

end PokerCoach
