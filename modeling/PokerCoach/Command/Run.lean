import PokerCoach.Command.Arguments
import PokerCoach.Command.Replay
import PokerCoach.Command.Player
import PokerCoach.Command.Skills
import PokerCoach.Store.Memory
import PokerCoach.Store.Directory

/-!
# Running commands

A command works on the records and the journal of a home directory. A dry run keeps its records in
memory; its events go to the journal like all others.
-/

namespace PokerCoach

open Data Time

structure Workspace where
  settings : Settings := .standard
  files : Files
  records : DirectoryStore
  journal : Journal

structure Shown where
  success : Bool
  text : String

/-- An engine for the settings: with the configured curriculum, and with the journal if events are
kept. -/
def Workspace.engine (workspace : Workspace) (store : MemoryStore ⊕ DirectoryStore) :
    Engine (MemoryStore ⊕ DirectoryStore) :=
  { store
    curriculum := .loadOrStandard workspace.files workspace.settings.curriculumPath
    settings := workspace.settings
    journal := if workspace.settings.eventsEnabled then some workspace.journal else none }

/-- The workspace with what an engine has left in the journal and in the record files, if it had
them. -/
def Workspace.take (workspace : Workspace) (engine : Engine (MemoryStore ⊕ DirectoryStore)) :
    Workspace :=
  { workspace with
    records := engine.store.elim (fun _ => workspace.records) id
    journal := engine.journal.getD workspace.journal }

/-- Runs a command at one instant. Only a replay reads the clock again, for each of its decisions. -/
def Command.run (command : Command) (workspace : Workspace) (now : Instant)
    (clock : Nat → Instant := fun _ => now) : Shown × Workspace :=
  let engine := workspace.engine (.inr workspace.records)
  match command with
  | .replay file session dryRun view =>
      let engine := if dryRun then workspace.engine (.inl .empty) else engine
      let (output, engine) :=
        Replay.run engine workspace.files file (session.getD "replay") clock
      (⟨output.success, view.render (toData output) output.text⟩, workspace.take engine)
  | .progress player view =>
      let (result, engine) := Standing.of engine player now
      let output : ProgressOutput := { player, result }
      (⟨output.success, view.render (toData output) output.text⟩, workspace.take engine)
  | .onboard player experience view =>
      let (result, engine) := engine.onboard player experience now
      let output : OnboardOutput := { player, experience, result }
      (⟨output.success, view.render (toData output) output.text⟩, workspace.take engine)
  | .skills check view =>
      let output := SkillsOutput.run workspace.files workspace.settings.curriculumPath check
      (⟨output.success, view.render (toData output) (output.text check)⟩, workspace)

/-- The files that a command reads besides records and settings. -/
def Command.inputs (command : Command) (settings : Settings) : List String :=
  settings.curriculumPath.toList ++
    match command with
    | .replay file _ _ _ => [file]
    | _ => []

def Command.usesRecords : Command → Bool
  | .replay _ _ dryRun _ => !dryRun
  | .skills _ _ => false
  | _ => true

/-- What is printed of a text: nothing if it is empty, and one more line end otherwise. -/
def printed (text : String) : String :=
  if text.isEmpty then "" else text ++ "\n"

def Shown.exitStatus (shown : Shown) : UInt32 :=
  if shown.success then 0 else 1

def Request.exitStatus : Request → UInt32
  | .misuse => 2
  | _ => 0

end PokerCoach
