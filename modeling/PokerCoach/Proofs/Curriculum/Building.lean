import PokerCoach.Curriculum.Build
import Mathlib.Data.List.Nodup
import Mathlib.Data.List.Sort
import Mathlib.Tactic.Common

/-!
# What building a curriculum checks

Each pass over a syllabus finds no fault exactly if its part of the syllabus is in order, and a
curriculum is built if no pass finds one.
-/

namespace PokerCoach

namespace Syllabus

/-! ### Skills and gates by themselves -/

theorem skillFault?_eq_none_iff {seen : List String} {skills : List Skill} :
    skillFault? seen skills = none ↔
      (∀ skill ∈ skills, skill.evidence.fault? = none) ∧ (skills.map Skill.id).Nodup ∧
        ∀ skill ∈ skills, skill.id ∉ seen := by
  induction skills generalizing seen with
  | nil => simp [skillFault?]
  | cons first rest ih =>
      simp only [List.forall_mem_cons, List.map_cons, List.nodup_cons]
      unfold skillFault?
      cases hrule : first.evidence.fault? with
      | some fault => simp
      | none =>
          by_cases hseen : first.id ∈ seen
          · simp [hseen]
          · simp only [List.contains_eq_mem, hseen, decide_false, Bool.false_eq_true, if_false, ih]
            -- The identifier of the first skill is new to the rest if it is not one of theirs.
            have hnew : (∀ skill ∈ rest, skill.id ∉ first.id :: seen) ↔
                first.id ∉ rest.map Skill.id ∧ ∀ skill ∈ rest, skill.id ∉ seen := by
              simp only [List.mem_cons, not_or, List.mem_map, not_exists, not_and]
              exact forall₂_and
            rw [hnew]
            simp only [true_and, not_false_eq_true]
            tauto

theorem gateFault?_eq_none_iff {seen : List UInt32} {gates : List GateOutline} :
    gateFault? seen gates = none ↔
      (∀ gate ∈ gates, gate.requiredReliable.toNat ≤ gate.skills.length) ∧
        (gates.map GateOutline.number).Nodup ∧ ∀ gate ∈ gates, gate.number ∉ seen := by
  induction gates generalizing seen with
  | nil => simp [gateFault?]
  | cons first rest ih =>
      simp only [List.forall_mem_cons, List.map_cons, List.nodup_cons]
      unfold gateFault?
      by_cases hmany : first.skills.length < first.requiredReliable.toNat
      · simp [hmany]
      · by_cases hseen : first.number ∈ seen
        · simp [hmany, hseen]
        · simp only [hmany, List.contains_eq_mem, hseen, decide_false, Bool.false_eq_true, if_false,
            ih]
          have hnew : (∀ gate ∈ rest, gate.number ∉ first.number :: seen) ↔
              first.number ∉ rest.map GateOutline.number ∧ ∀ gate ∈ rest, gate.number ∉ seen := by
            simp only [List.mem_cons, not_or, List.mem_map, not_exists, not_and]
            exact forall₂_and
          rw [hnew]
          simp only [Nat.not_lt.mp hmany, true_and, not_false_eq_true]
          tauto

/-! ### The numbers of the gates -/

theorem numberFault?_eq_none_iff {expected : Nat} {outlines : List GateOutline} :
    numberFault? expected outlines = none ↔
      outlines.map (·.number.toNat) = List.range' expected outlines.length := by
  induction outlines generalizing expected with
  | nil => simp [numberFault?]
  | cons first rest ih =>
      unfold numberFault?
      rw [List.map_cons, List.length_cons, List.range'_succ, List.cons.injEq]
      by_cases hfirst : first.number.toNat = expected
      · rw [if_pos hfirst, ih, and_iff_right hfirst]
      · rw [if_neg hfirst]
        simp [hfirst]

theorem perm_sortGates (gates : List GateOutline) : (sortGates gates).Perm gates :=
  List.mergeSort_perm gates _

theorem pairwise_sortGates (gates : List GateOutline) :
    (sortGates gates).Pairwise fun first second => first.number.toNat ≤ second.number.toNat := by
  have hsorted : (sortGates gates).Pairwise fun first second =>
      decide (first.number ≤ second.number) = true := by
    apply List.pairwise_mergeSort
    · intro first second third hfirst hsecond
      exact decide_eq_true (UInt32.le_trans (of_decide_eq_true hfirst) (of_decide_eq_true hsecond))
    · intro first second
      simp only [Bool.or_eq_true, decide_eq_true_eq]
      exact UInt32.le_total first.number second.number
  refine hsorted.imp ?_
  intro first second hle
  exact UInt32.le_iff_toNat_le.mp (of_decide_eq_true hle)

/-- In order, the gates are numbered without a gap exactly if their numbers are distinct and are
those from 1 up to how many gates there are. -/
theorem numbers_sortGates_iff (gates : List GateOutline) :
    (sortGates gates).map (·.number.toNat) = List.range' 1 (sortGates gates).length ↔
      (gates.map GateOutline.number).Nodup ∧
        ∀ n, (∃ gate ∈ gates, gate.number.toNat = n) ↔ 1 ≤ n ∧ n ≤ gates.length := by
  have hperm := (perm_sortGates gates).map (·.number.toNat)
  have hnodup : (gates.map GateOutline.number).Nodup ↔ (gates.map (·.number.toNat)).Nodup := by
    have hmap : gates.map (·.number.toNat) = (gates.map GateOutline.number).map UInt32.toNat := by
      rw [List.map_map]
      rfl
    rw [hmap, List.nodup_map_iff fun _ _ => UInt32.toNat_inj.mp]
  have hmem (n : Nat) : n ∈ List.range' 1 gates.length ↔ 1 ≤ n ∧ n ≤ gates.length := by
    rw [List.mem_range'_1]
    omega
  rw [(perm_sortGates gates).length_eq, hnodup]
  constructor
  · intro hrange
    rw [hrange] at hperm
    refine ⟨hperm.nodup_iff.mp List.nodup_range', fun n => ?_⟩
    rw [← hmem, hperm.mem_iff, List.mem_map]
  · rintro ⟨hdistinct, hnumbers⟩
    have hall : (gates.map (·.number.toNat)).Perm (List.range' 1 gates.length) := by
      apply (List.perm_ext_iff_of_nodup hdistinct List.nodup_range').mpr
      intro n
      rw [hmem, ← hnumbers, List.mem_map]
    refine (hperm.trans hall).eq_of_pairwise (fun _ _ _ _ => Nat.le_antisymm) ?_ ?_
    · exact List.pairwise_map.mpr (pairwise_sortGates gates)
    · exact List.pairwise_le_range'

/-! ### The lists of the gates -/

theorem lookup_eq_none_iff_not_mem {owners : List (String × UInt32)} {id : String} :
    owners.lookup id = none ↔ id ∉ owners.map Prod.fst := by
  rw [List.lookup_eq_none_iff]
  simp only [bne_iff_ne, ne_eq, List.mem_map, not_exists, not_and]
  exact forall₂_congr fun _ _ => not_congr eq_comm

theorem listSkills_cons_eq_ok_iff {skills : List Skill} {number : UInt32}
    {owners : List (String × UInt32)} {id : String} {rest : List String} {listed : List Skill} :
    listSkills skills number owners (id :: rest) = .ok listed ↔
      ∃ skill others, listed = skill :: others ∧ skills.find? (·.id == id) = some skill ∧
        skill.gate = number ∧ owners.lookup id = none ∧
        listSkills skills number ((id, number) :: owners) rest = .ok others := by
  rw [listSkills]
  cases hfind : skills.find? (·.id == id) with
  | none => simp
  | some skill =>
      cases hlookup : owners.lookup id with
      | some first => simp
      | none =>
          by_cases hgate : skill.gate = number
          · cases hrest : listSkills skills number ((id, number) :: owners) rest with
            | error fault => simp [hgate, bind, Except.bind]
            | ok others =>
                simp only [hgate, if_true, bind, Except.bind, pure, Except.pure,
                  Except.ok.injEq, Option.some.injEq, true_and]
                constructor
                · rintro rfl
                  exact ⟨skill, others, rfl, rfl, hgate, rfl⟩
                · rintro ⟨_, _, rfl, rfl, -, rfl⟩
                  rfl
          · simp only [hgate, if_false, reduceCtorEq, false_iff]
            rintro ⟨_, _, -, hsame, hnumber, -⟩
            cases hsame
            exact hgate hnumber

/-- The skills that a gate lists: their own gate is the one that lists them, and nothing is listed
before or twice. -/
theorem listSkills_ok {skills : List Skill} {number : UInt32} {owners : List (String × UInt32)}
    {ids : List String} {listed : List Skill}
    (hlisted : listSkills skills number owners ids = .ok listed) :
    listed.map Skill.id = ids ∧ (∀ skill ∈ listed, skill ∈ skills ∧ skill.gate = number) ∧
      ids.Nodup ∧ ∀ id ∈ ids, id ∉ owners.map Prod.fst := by
  induction ids generalizing owners listed with
  | nil =>
      cases hlisted
      simp
  | cons id rest ih =>
      obtain ⟨skill, others, rfl, hfind, hgate, hlookup, hrest⟩ :=
        listSkills_cons_eq_ok_iff.mp hlisted
      obtain ⟨hids, hothers, hnodup, hnew⟩ := ih hrest
      have hid : skill.id = id := by simpa using List.find?_some hfind
      refine ⟨by rw [List.map_cons, hids, hid], ?_, ?_, ?_⟩
      · exact List.forall_mem_cons.mpr ⟨⟨List.mem_of_find?_eq_some hfind, hgate⟩, hothers⟩
      · exact List.nodup_cons.mpr ⟨fun hagain => hnew id hagain List.mem_cons_self, hnodup⟩
      · rw [List.forall_mem_cons]
        refine ⟨lookup_eq_none_iff_not_mem.mp hlookup, fun other hother howned => ?_⟩
        exact hnew other hother (List.mem_cons_of_mem id howned)

theorem exists_listSkills {skills : List Skill} {number : UInt32} {owners : List (String × UInt32)}
    {ids : List String}
    (hdefined : ∀ id ∈ ids, ∃ skill, skills.find? (·.id == id) = some skill ∧ skill.gate = number)
    (hnodup : ids.Nodup) (hnew : ∀ id ∈ ids, id ∉ owners.map Prod.fst) :
    ∃ listed, listSkills skills number owners ids = .ok listed := by
  induction ids generalizing owners with
  | nil => exact ⟨[], rfl⟩
  | cons id rest ih =>
      obtain ⟨⟨skill, hfind, hgate⟩, hdefined⟩ := List.forall_mem_cons.mp hdefined
      obtain ⟨hfirst, hnew⟩ := List.forall_mem_cons.mp hnew
      obtain ⟨hlater, hnodup⟩ := List.nodup_cons.mp hnodup
      have hstill : ∀ other ∈ rest, other ∉ ((id, number) :: owners).map Prod.fst := by
        intro other hother howned
        rcases List.mem_cons.mp howned with rfl | howned
        · exact hlater hother
        · exact hnew other hother howned
      obtain ⟨others, hrest⟩ := ih hdefined hnodup hstill
      refine ⟨skill :: others, listSkills_cons_eq_ok_iff.mpr ?_⟩
      exact ⟨skill, others, rfl, hfind, hgate, lookup_eq_none_iff_not_mem.mpr hfirst, hrest⟩

theorem listGates_cons_eq_ok_iff {skills : List Skill} {owners : List (String × UInt32)}
    {outline : GateOutline} {rest : List GateOutline} {gates : List Gate} :
    listGates skills owners (outline :: rest) = .ok gates ↔
      ∃ gate others, gates = gate :: others ∧ gate.outline = outline ∧
        listSkills skills outline.number owners outline.skills = .ok gate.skills ∧
        listGates skills (outline.skills.map (·, outline.number) ++ owners) rest = .ok others := by
  rw [listGates]
  cases hfirst : listSkills skills outline.number owners outline.skills with
  | error fault => simp [bind, Except.bind]
  | ok listed =>
      have hids := (listSkills_ok hfirst).1
      cases hrest : listGates skills (outline.skills.map (·, outline.number) ++ owners) rest with
      | error fault => simp [bind, Except.bind]
      | ok others =>
          simp only [bind, Except.bind, pure, Except.pure, Except.ok.injEq]
          constructor
          · rintro rfl
            refine ⟨_, others, rfl, ?_, rfl, rfl⟩
            simp only [Gate.outline, Gate.skillIds, hids]
          · rintro ⟨gate, _, rfl, rfl, rfl, rfl⟩
            rfl

theorem listGates_ok {skills : List Skill} {owners : List (String × UInt32)}
    {outlines : List GateOutline} {gates : List Gate}
    (hlisted : listGates skills owners outlines = .ok gates) :
    gates.map Gate.outline = outlines ∧
      (∀ gate ∈ gates, ∀ skill ∈ gate.skills, skill ∈ skills ∧ skill.gate = gate.number) ∧
      (outlines.flatMap GateOutline.skills).Nodup ∧
      ∀ id ∈ outlines.flatMap GateOutline.skills, id ∉ owners.map Prod.fst := by
  induction outlines generalizing owners gates with
  | nil =>
      cases hlisted
      simp
  | cons outline rest ih =>
      -- The skills of this gate are owned from here on, so that no later gate lists them again.
      obtain ⟨gate, others, rfl, houtline, hfirst, hrest⟩ := listGates_cons_eq_ok_iff.mp hlisted
      obtain ⟨hids, hskills, hnodup, hnew⟩ := listSkills_ok hfirst
      obtain ⟨houtlines, hothers, hnodups, hnews⟩ := ih hrest
      simp only [List.map_append, List.map_map, List.mem_append, not_or] at hnews
      simp only [List.map_cons, List.flatMap_cons, List.nodup_append', List.mem_append, houtline,
        houtlines, List.forall_mem_cons, true_and]
      refine ⟨⟨?_, hothers⟩, ⟨hnodup, hnodups, ?_⟩, ?_⟩
      · rwa [← houtline] at hskills
      · intro id hmem hlater
        exact (hnews id hlater).1 (by simpa using hmem)
      · rintro id (hmem | hmem)
        · exact hnew id hmem
        · exact (hnews id hmem).2

theorem exists_listGates {skills : List Skill} {owners : List (String × UInt32)}
    {outlines : List GateOutline}
    (hdefined : ∀ outline ∈ outlines, ∀ id ∈ outline.skills,
      ∃ skill, skills.find? (·.id == id) = some skill ∧ skill.gate = outline.number)
    (hnodup : (outlines.flatMap GateOutline.skills).Nodup)
    (hnew : ∀ id ∈ outlines.flatMap GateOutline.skills, id ∉ owners.map Prod.fst) :
    ∃ gates, listGates skills owners outlines = .ok gates := by
  induction outlines generalizing owners with
  | nil => exact ⟨[], rfl⟩
  | cons outline rest ih =>
      obtain ⟨hfirst, hdefined⟩ := List.forall_mem_cons.mp hdefined
      rw [List.flatMap_cons, List.nodup_append'] at hnodup
      rw [List.flatMap_cons, List.forall_mem_append] at hnew
      obtain ⟨listed, hlisted⟩ := exists_listSkills hfirst hnodup.1 hnew.1
      have hstill : ∀ id ∈ rest.flatMap GateOutline.skills,
          id ∉ (outline.skills.map (·, outline.number) ++ owners).map Prod.fst := by
        intro id hid howned
        rw [List.map_append, List.map_map, List.mem_append] at howned
        rcases howned with howned | howned
        · exact hnodup.2.2 (by simpa using howned) hid
        · exact hnew.2 id hid howned
      obtain ⟨others, hrest⟩ := ih hdefined hnodup.2.1 hstill
      let gate : Gate := ⟨outline.number, outline.name, outline.requiredReliable, listed⟩
      refine ⟨gate :: others, listGates_cons_eq_ok_iff.mpr ⟨gate, others, rfl, ?_, hlisted, hrest⟩⟩
      simp only [Gate.outline, Gate.skillIds, gate, (listSkills_ok hlisted).1]

theorem unlisted?_eq_none_iff {skills : List Skill} {gates : List Gate} :
    unlisted? skills gates = none ↔
      ∀ skill ∈ skills, skill.id ∈ (gates.map Gate.outline).flatMap GateOutline.skills := by
  have hids : (gates.map Gate.outline).flatMap GateOutline.skills = gates.flatMap Gate.skillIds := by
    rw [List.flatMap_map]
    rfl
  rw [hids]
  simp [unlisted?]

/-! ### All passes -/

/-- A curriculum is what the syllabus gives if no pass finds a fault and it holds the gates of the
syllabus in order. -/
theorem curriculum_eq_ok_iff {syllabus : Syllabus} {curriculum : Curriculum} :
    syllabus.curriculum = .ok curriculum ↔
      skillFault? [] syllabus.skills = none ∧ gateFault? [] syllabus.gates = none ∧
        numberFault? 1 (sortGates syllabus.gates) = none ∧
        listGates syllabus.skills [] (sortGates syllabus.gates) = .ok curriculum.gates ∧
        unlisted? syllabus.skills curriculum.gates = none := by
  unfold Syllabus.curriculum
  cases skillFault? [] syllabus.skills with
  | some fault => simp
  | none =>
  cases gateFault? [] syllabus.gates with
  | some fault => simp
  | none =>
  cases hnumbers : numberFault? 1 (sortGates syllabus.gates) with
  | some fault => simp [hnumbers]
  | none =>
  cases hlisted : listGates syllabus.skills [] (sortGates syllabus.gates) with
  | error fault => simp [hnumbers, hlisted, bind, Except.bind]
  | ok gates =>
      cases hunlisted : unlisted? syllabus.skills gates with
      | some skill =>
          simp only [hnumbers, hlisted, hunlisted, bind, Except.bind, reduceCtorEq, true_and,
            false_iff, Except.ok.injEq]
          rintro ⟨rfl, hnone⟩
          rw [hunlisted] at hnone
          cases hnone
      | none =>
          simp only [hnumbers, hlisted, hunlisted, bind, Except.bind, pure, Except.pure, true_and,
            Except.ok.injEq]
          constructor
          · rintro rfl
            exact ⟨rfl, hunlisted⟩
          · rintro ⟨rfl, -⟩
            rfl

end Syllabus

end PokerCoach
