import PokerCoach.Command.Run
import Std.Time.DateTime.Timestamp

/-!
# The program

Reads what a command works on, runs the command, writes what has changed, and prints the result.
-/

namespace PokerCoach.Program

open Std Time

def variableNames : List String :=
  ["SKILLPATH_HOME", "SKILLPATH_MARGINAL_CREDIT", "SKILLPATH_PRACTICING_SPLIT",
    "SKILLPATH_MAX_SURFACES", "SKILLPATH_MIN_HANDS_BETWEEN", "SKILLPATH_CURRICULUM",
    "SKILLPATH_LOG_LEVEL", "SKILLPATH_EVENTS"]

def environment : IO Environment := do
  let values ← variableNames.mapM fun name => do pure (name, ← IO.getEnv name)
  pure fun name => (values.lookup name).join

def clock : IO Instant := do
  let nanos : Int := (← Std.Time.Timestamp.now).toNanosecondsSinceUnixEpoch.val
  pure (.ofUnix (nanos / 1000000000) (nanos % 1000000000).toNat)

def readText (path : String) : IO FileText := do
  try
    match String.fromUTF8? (← IO.FS.readBinFile path) with
    | some text => pure (.text text)
    | none => pure (.unreadable "stream did not contain valid UTF-8")
  catch
    | .noFileOrDirectory .. => pure .missing
    | error => pure (.unreadable (toString error))

def readFiles (paths : List String) : IO Files := do
  let texts ← paths.mapM fun path => do pure (path, ← readText path)
  pure fun path => (texts.lookup path).getD .missing

/-- The files of a directory. One that is no text counts as empty, which no record is. -/
def readDirectory (path : String) : IO DirectoryStore := do
  let entries ← try (System.mkFilePath [path]).readDir catch _ => pure #[]
  let files ← entries.toList.mapM fun entry => do
    match ← readText (joinPath path entry.fileName) with
    | .text text => pure (entry.fileName, text)
    | _ => pure (entry.fileName, "")
  pure { path, files := Data.mapOfEntries files }

/-- Writes the files that are not as they were before, each through a temporary one. -/
def writeDirectory (before after : DirectoryStore) : IO Unit := do
  for (name, text) in after.files.toList do
    if before.files[name]? ≠ some text then
      let temporary := joinPath after.path ("." ++ name ++ ".tmp")
      IO.FS.writeFile temporary text
      IO.FS.rename temporary (joinPath after.path name)

/-- Appends the new events to the file of a journal. -/
def appendJournal (journal : Journal) : IO Unit := do
  if !journal.entries.isEmpty then
    let handle ← IO.FS.Handle.mk journal.path .append
    handle.putStr (String.join (journal.entries.map Journal.line))
    handle.flush

def findHome (env : Environment) : IO String := do
  let named := (env "SKILLPATH_HOME").getD ""
  let resolved ← try pure (some (← IO.FS.realPath named).toString) catch _ => pure none
  pure (homeDirectory env (fun _ => resolved) ((← IO.getEnv "HOME").getD ""))

def runCommand (command : Command) : IO UInt32 := do
  let env ← environment
  let home ← findHome env
  let directory := (← IO.currentDir).toString
  let layers ← readFiles [userSettingsPath home, projectSettingsPath directory]
  let (settings, warnings) := Settings.load env layers home directory
  warnings.forM fun warning => IO.eprintln warning
  if command.usesRecords then
    IO.FS.createDirAll (playersPath home)
  let workspace : Workspace :=
    { settings
      files := ← readFiles (command.inputs settings)
      records := ← readDirectory (playersPath home)
      journal := { path := eventsPath home } }
  -- A replay is over in an instant, so that one reading of the clock serves all its decisions.
  let (shown, after) := command.run workspace (← clock)
  writeDirectory workspace.records after.records
  try
    IO.FS.createDirAll home
    appendJournal after.journal
  catch _ => pure ()
  IO.print (printed shown.text)
  pure shown.exitStatus

def usage : String :=
  Text.unlines
    ["Usage:",
      "  replay FILE [--session-id ID] [--dry-run] [--json] [--quiet]",
      "  progress PLAYER [--json] [--quiet]",
      "  onboard PLAYER --level beginner|intermediate|advanced [--json] [--quiet]",
      "  skills [--check] [--json] [--quiet]"]

def respond (request : Request) : IO UInt32 := do
  match request with
  | .run command => runCommand command
  | .help =>
      IO.print usage
      pure request.exitStatus
  | .misuse =>
      IO.eprint usage
      pure request.exitStatus

end PokerCoach.Program

/-- An error of the file system ends the program with status 1. -/
def main (words : List String) : IO UInt32 := do
  try
    PokerCoach.Program.respond (PokerCoach.Command.parse words)
  catch error =>
    IO.eprintln s!"Error: {error}"
    pure 1
