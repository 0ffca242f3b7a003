import PokerCoach.Command.Run
import PokerCoach.Proofs.Curriculum.Rebuilding

/-!
# What is listed

A listing and an engine each read the configured curriculum file. Both use it under one condition,
which is on the text of the file, and a curriculum in use is listed whole.
-/

namespace PokerCoach

/-! ### Files with a curriculum -/

/-- The text of a file is a syllabus that can be taught. -/
def Files.HoldsSyllabus (files : Files) (file : String) (syllabus : Syllabus) : Prop :=
  ∃ text, files file = .text text ∧ Syllabus.parse text = .ok syllabus ∧ syllabus.Consistent

namespace Curriculum

/-- A file is configured, and another curriculum has to stand in for it. -/
def FallsBack (files : Files) (path : Option String) : Prop :=
  ∃ file, path = some file ∧ ¬ ∃ syllabus, files.HoldsSyllabus file syllabus

variable {files : Files} {path : Option String}

theorem ofFile_eq_ok_iff {file : String} {curriculum : Curriculum} :
    ofFile files file = .ok curriculum ↔
      ∃ syllabus, files.HoldsSyllabus file syllabus ∧ syllabus.curriculum = .ok curriculum := by
  constructor
  · intro hread
    cases hfile : files file with
    | missing => simp [ofFile, Files.read, hfile, bind, Except.bind] at hread
    | unreadable cause => simp [ofFile, Files.read, hfile, bind, Except.bind] at hread
    | text text =>
        simp only [ofFile, parse, Files.read, hfile, bind, Except.bind] at hread
        cases hparsed : Syllabus.parse text with
        | error error => simp [hparsed] at hread
        | ok syllabus =>
            rw [hparsed] at hread
            have hbuilt := ofSyllabus_eq_ok_iff.mp hread
            have hconsistent := Syllabus.consistent_of_curriculum hbuilt
            exact ⟨syllabus, ⟨text, hfile, hparsed, hconsistent⟩, hbuilt⟩
  · rintro ⟨syllabus, ⟨text, hfile, hparsed, -⟩, hbuilt⟩
    simp only [ofFile, parse, Files.read, hfile, hparsed, bind, Except.bind]
    exact ofSyllabus_eq_ok_iff.mpr hbuilt

theorem ofFile_of_holdsSyllabus {file : String} {syllabus : Syllabus}
    (hholds : files.HoldsSyllabus file syllabus) :
    ∃ curriculum, syllabus.curriculum = .ok curriculum ∧ ofFile files file = .ok curriculum := by
  obtain ⟨text, -, -, hconsistent⟩ := id hholds
  obtain ⟨curriculum, hbuilt⟩ := hconsistent.exists_curriculum
  exact ⟨curriculum, hbuilt, ofFile_eq_ok_iff.mpr ⟨syllabus, hholds, hbuilt⟩⟩

theorem fallsBack_some_iff {file : String} :
    FallsBack files (some file) ↔ ∃ error, ofFile files file = .error error := by
  constructor
  · rintro ⟨_, hpath, hnone⟩
    cases hpath
    cases hread : ofFile files file with
    | error error => exact ⟨error, rfl⟩
    | ok curriculum =>
        obtain ⟨syllabus, hholds, -⟩ := ofFile_eq_ok_iff.mp hread
        exact absurd ⟨syllabus, hholds⟩ hnone
  · rintro ⟨error, hread⟩
    refine ⟨file, rfl, ?_⟩
    rintro ⟨syllabus, hholds⟩
    obtain ⟨curriculum, -, hok⟩ := ofFile_of_holdsSyllabus hholds
    cases hok.symm.trans hread

theorem loadOrStandard_of_fallsBack (hfalls : FallsBack files path) :
    loadOrStandard files path = standard := by
  obtain ⟨file, rfl, -⟩ := id hfalls
  obtain ⟨error, hread⟩ := fallsBack_some_iff.mp hfalls
  simp only [loadOrStandard, hread, failOpen]

theorem loadOrStandard_of_holdsSyllabus {file : String} {syllabus : Syllabus}
    (hholds : files.HoldsSyllabus file syllabus) :
    syllabus.curriculum = .ok (loadOrStandard files (some file)) := by
  obtain ⟨curriculum, hbuilt, hread⟩ := ofFile_of_holdsSyllabus hholds
  simpa only [loadOrStandard, hread, failOpen] using hbuilt

theorem accepted_loadOrStandard : (loadOrStandard files path).Accepted := by
  by_cases hfalls : FallsBack files path
  · exact .inl (loadOrStandard_of_fallsBack hfalls)
  · cases path with
    | none => exact .inl rfl
    | some file =>
        have hheld : ∃ syllabus, files.HoldsSyllabus file syllabus := by
          by_contra hnone
          exact hfalls ⟨file, rfl, hnone⟩
        obtain ⟨syllabus, hholds⟩ := hheld
        exact .inr ⟨syllabus, loadOrStandard_of_holdsSyllabus hholds⟩

end Curriculum

/-! ### Listings -/

namespace SkillsOutput

open Curriculum

variable {files : Files} {path : Option String}

theorem run_of_not_fallsBack (check : Bool) (hused : ¬ FallsBack files path) :
    ∃ source, run files path check = ofCurriculum (loadOrStandard files path) source check none := by
  cases path with
  | none => exact ⟨builtIn, rfl⟩
  | some file =>
      rw [fallsBack_some_iff] at hused
      cases hread : ofFile files file with
      | error error => exact absurd ⟨error, hread⟩ hused
      | ok curriculum => exact ⟨file, by simp only [run, loadOrStandard, hread, failOpen]⟩

theorem run_of_fallsBack (hfalls : FallsBack files path) :
    (∃ warning, run files path false =
      ofCurriculum (loadOrStandard files path) builtIn false (some warning)) ∧
    ∃ error, (run files path true).result = .error error := by
  rw [loadOrStandard_of_fallsBack hfalls]
  obtain ⟨file, rfl, -⟩ := id hfalls
  obtain ⟨error, hread⟩ := fallsBack_some_iff.mp hfalls
  exact ⟨⟨warningText file error, by simp [run, hread]⟩, error, by simp [run, hread]⟩

end SkillsOutput

/-- All of a curriculum is listed: its gates, and in them every skill that it finds, once. -/
structure Listing.Shows (listing : Listing) (curriculum : Curriculum) : Prop where
  gates : listing.gates = curriculum.gates
  skills : listing.gates.flatMap Gate.skillIds = curriculum.skills.map Skill.id
  length : (listing.gates.flatMap Gate.skillIds).length = listing.skillCount
  count : listing.skillCount = curriculum.skillCount
  once : (listing.gates.flatMap Gate.skillIds).Nodup
  found : ∀ id, id ∈ listing.gates.flatMap Gate.skillIds ↔ (curriculum.skill? id).isSome = true
  lookups : ∀ gate ∈ listing.gates, gate.skillIds.filterMap curriculum.skill? = gate.skills

namespace Curriculum.WellFormed

variable {curriculum : Curriculum} (hwell : curriculum.WellFormed)
include hwell

theorem isSome_skill?_iff {id : String} :
    (curriculum.skill? id).isSome = true ↔ id ∈ curriculum.skills.map Skill.id := by
  rw [Option.isSome_iff_exists, List.mem_map]
  constructor
  · rintro ⟨skill, hfound⟩
    exact ⟨skill, skill?_eq_some hfound⟩
  · rintro ⟨skill, hskill, rfl⟩
    exact ⟨skill, hwell.skill?_eq hskill⟩

theorem filterMap_skill?_skillIds {gate : Gate} (hgate : gate ∈ curriculum.gates) :
    gate.skillIds.filterMap curriculum.skill? = gate.skills := by
  have hfound : ∀ skill ∈ gate.skills, curriculum.skill? skill.id = some skill := fun skill hskill =>
    hwell.skill?_eq (List.mem_flatMap.mpr ⟨gate, hgate, hskill⟩)
  calc gate.skillIds.filterMap curriculum.skill?
      = gate.skills.filterMap fun skill => curriculum.skill? skill.id := by
        rw [Gate.skillIds, List.filterMap_map]
        rfl
    _ = gate.skills.filterMap some := List.filterMap_congr hfound
    _ = gate.skills := List.filterMap_some

theorem shows (warning : Option String) :
    Listing.Shows { skillCount := curriculum.skillCount, gates := curriculum.gates, warning }
      curriculum := by
  have hids : curriculum.gates.flatMap Gate.skillIds = curriculum.skills.map Skill.id :=
    List.map_flatMap.symm
  constructor
  · rfl
  · exact hids
  · exact hids ▸ List.length_map Skill.id
  · rfl
  · exact hids ▸ hwell.nodup
  · intro id
    rw [hwell.isSome_skill?_iff, ← hids]
  · intro gate hgate
    exact hwell.filterMap_skill?_skillIds hgate

end Curriculum.WellFormed

/-- A listing shows the curriculum that an engine runs with, whatever the configured file is, and
warns exactly if that is the standard one in place of the file; a check succeeds exactly otherwise.
A syllabus in the file is what the curriculum is built from, with all of its skills. -/
theorem skills_lists_curriculum_of_engine (workspace : Workspace)
    (store : MemoryStore ⊕ DirectoryStore) :
    let path := workspace.settings.curriculumPath
    let curriculum := (workspace.engine store).curriculum
    let falls := Curriculum.FallsBack workspace.files path
    (∃ listing, (SkillsOutput.run workspace.files path false).result = .ok listing ∧
      listing.Shows curriculum ∧ (listing.warning.isSome = true ↔ falls)) ∧
    ((SkillsOutput.run workspace.files path true).success = true ↔ ¬ falls) ∧
    (∀ listing, (SkillsOutput.run workspace.files path true).result = .ok listing →
      listing.skillCount = curriculum.skillCount) ∧
    (falls ∨ path = none → curriculum = .standard) ∧
    ∀ file syllabus, path = some file → workspace.files.HoldsSyllabus file syllabus →
      syllabus.curriculum = .ok curriculum ∧ curriculum.skillCount = syllabus.skills.length := by
  intro path curriculum falls
  have hwell : curriculum.WellFormed := Curriculum.accepted_loadOrStandard.wellFormed
  have hstandard : falls ∨ path = none → curriculum = .standard := by
    rintro (hfalls | hpath)
    · exact Curriculum.loadOrStandard_of_fallsBack hfalls
    · exact congrArg (Curriculum.loadOrStandard workspace.files) hpath
  have hsyllabus (file : String) (syllabus : Syllabus) (hpath : path = some file)
      (hholds : workspace.files.HoldsSyllabus file syllabus) :
      syllabus.curriculum = .ok curriculum ∧ curriculum.skillCount = syllabus.skills.length := by
    have hcurriculum : curriculum = .loadOrStandard workspace.files (some file) :=
      congrArg (Curriculum.loadOrStandard workspace.files) hpath
    have hbuilt : syllabus.curriculum = .ok curriculum := by
      rw [hcurriculum]
      exact Curriculum.loadOrStandard_of_holdsSyllabus hholds
    exact ⟨hbuilt, (Syllabus.perm_skills_of_curriculum hbuilt).length_eq⟩
  by_cases hfalls : falls
  · obtain ⟨⟨warning, hlisted⟩, error, hchecked⟩ := SkillsOutput.run_of_fallsBack hfalls
    refine ⟨⟨_, congrArg SkillsOutput.result hlisted, hwell.shows _, ?_⟩, ?_, ?_, hstandard,
      hsyllabus⟩
    · exact iff_of_true rfl hfalls
    · rw [SkillsOutput.success, hchecked]
      simp [Except.isOk, Except.toBool, hfalls]
    · intro listing hok
      cases hchecked.symm.trans hok
  · obtain ⟨source, hlisted⟩ := SkillsOutput.run_of_not_fallsBack false hfalls
    obtain ⟨source', hchecked⟩ := SkillsOutput.run_of_not_fallsBack true hfalls
    refine ⟨⟨_, congrArg SkillsOutput.result hlisted, hwell.shows _, ?_⟩, ?_, ?_, hstandard,
      hsyllabus⟩
    · exact iff_of_false Bool.false_ne_true hfalls
    · rw [hchecked]
      exact iff_of_true rfl hfalls
    · intro listing hok
      rw [hchecked] at hok
      cases hok
      rfl

/-- A file with a curriculum of its own, and the path of a file that is not there. -/
theorem skills_lists_curriculum_of_engine_own_and_missing :
    let own := "[[skills]]\nid = \"bluff\"\nname = \"Bluffing\"\ngate = 1\n" ++
      "[[gates]]\nnumber = 1\nskills = [\"bluff\"]\nrequired_reliable = 1\n"
    let files : Files := fun path => if path = "own.toml" then .text own else .missing
    (∃ listing, (SkillsOutput.run files (some "own.toml") false).result = .ok listing ∧
      listing.gates.flatMap Gate.skillIds = ["bluff"] ∧ listing.skillCount = 1 ∧
      listing.warning.isSome = false) ∧
    (∃ listing, (SkillsOutput.run files (some "gone.toml") false).result = .ok listing ∧
      listing.gates = Curriculum.standard.gates ∧ listing.warning.isSome = true) ∧
    (SkillsOutput.run files (some "own.toml") true).success = true ∧
    (SkillsOutput.run files (some "gone.toml") true).success = false := by
  intro own files
  let workspace (file : String) : Workspace :=
    { settings := { curriculumPath := some file }
      files
      records := { path := "players" }
      journal := { path := "events.jsonl" } }
  have hown : ¬ Curriculum.FallsBack files (some "own.toml") := by
    rw [Curriculum.fallsBack_some_iff]
    rintro ⟨error, hread⟩
    have hok : (Curriculum.ofFile files "own.toml").isOk = true := by decide +kernel
    rw [hread] at hok
    cases hok
  have hgone : Curriculum.FallsBack files (some "gone.toml") :=
    Curriculum.fallsBack_some_iff.mpr ⟨_, rfl⟩
  have hids : (Curriculum.loadOrStandard files (some "own.toml")).skills.map Skill.id =
      ["bluff"] := by decide +kernel
  -- What is in the files has been read; unfolded any further it only slows down what follows.
  clear_value files
  obtain ⟨⟨listing, hlisted, hshows, hwarning⟩, hchecked, -⟩ :=
    skills_lists_curriculum_of_engine (workspace "own.toml") (.inl .empty)
  obtain ⟨⟨listing', hlisted', hshows', hwarning'⟩, hchecked', -, hstandard, -⟩ :=
    skills_lists_curriculum_of_engine (workspace "gone.toml") (.inl .empty)
  have hlistedIds : listing.gates.flatMap Gate.skillIds = ["bluff"] := hshows.skills.trans hids
  refine ⟨⟨listing, hlisted, hlistedIds, ?_, ?_⟩, ⟨listing', hlisted', ?_, hwarning'.mpr hgone⟩,
    hchecked.mpr hown, ?_⟩
  · rw [← hshows.length, hlistedIds]
    rfl
  · exact Bool.eq_false_iff.mpr (mt hwarning.mp hown)
  · rw [hshows'.gates, hstandard (.inl hgone)]
  · exact Bool.eq_false_iff.mpr fun hok => hchecked'.mp hok hgone

end PokerCoach
