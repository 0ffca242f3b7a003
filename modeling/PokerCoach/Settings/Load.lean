import PokerCoach.Settings.Basic
import PokerCoach.Session.Codec
import PokerCoach.Files.Tree
import PokerCoach.Settings.Environment
import PokerCoach.Toml.Reader

/-!
# Loading settings

The standard settings, under those of the user, under those of the project, under the environment. A
layer that cannot be read counts as if it were not there.
-/

namespace PokerCoach

open Data

/-! ### Settings as data trees

A settings file has a section for each matter, and what it leaves out keeps its standard value. -/

instance : ToData Settings where
  toData settings := .record
    [("evidence", .record [("marginal_credit", toData settings.marginalCredit)]),
     ("coaching", .record [("practicing_split", toData settings.practicingSplit)]),
     ("session", toData settings.cadence),
     ("curriculum", .record [("path", toData settings.curriculumPath)]),
     ("logging", .record [("level", toData settings.logLevel)]),
     ("events", .record [("enabled", toData settings.eventsEnabled)])]

def Data.Fields.nested (fs : Fields) (name : String) (names : List String) :
    Except Fault Fields :=
  fields names fs.dialect ((fs.found.lookup name).getD (.record []))

instance : OfData Settings where
  ofData dialect v := do
    let fs ← fields
      ["evidence", "coaching", "session", "curriculum", "logging", "events"] dialect v
    let evidence ← fs.nested "evidence" ["marginal_credit"]
    let coaching ← fs.nested "coaching" ["practicing_split"]
    let session ← fs.nested "session"
      ["max_surfaces_per_skill", "min_hands_between_surfaces"]
    let curriculum ← fs.nested "curriculum" ["path"]
    let logging ← fs.nested "logging" ["level"]
    let events ← fs.nested "events" ["enabled"]
    let standard := Settings.standard
    pure
      { marginalCredit := ← evidence.defaulted "marginal_credit" standard.marginalCredit
        practicingSplit := ← coaching.defaulted "practicing_split" standard.practicingSplit
        cadence :=
          { maxSurfaces :=
              ← session.defaulted "max_surfaces_per_skill" standard.cadence.maxSurfaces
            minHandsBetween :=
              ← session.defaulted "min_hands_between_surfaces"
                standard.cadence.minHandsBetween }
        curriculumPath := ← curriculum.defaulted "path" none
        logLevel := ← logging.defaulted "level" standard.logLevel
        eventsEnabled := ← events.defaulted "enabled" standard.eventsEnabled }

/-! ### The home directory

Where records, events and the settings of a user are kept. -/

/-- The home directory: the one that the environment names, which `resolve` makes absolute if it is
a relative path of something that exists, or the standard one of the user. -/
def homeDirectory (env : Environment) (resolve : String → Option String) (userHome : String) :
    String :=
  match env "SKILLPATH_HOME" with
  | some path =>
      if path.isEmpty then joinPath userHome ".skillpath"
      else if path.toList.head? = some '/' then path
      else (resolve path).getD path
  | none => joinPath userHome ".skillpath"

def playersPath (home : String) : String := joinPath home "players"

def eventsPath (home : String) : String := joinPath home "events.log"

def crashPath (home : String) : String := joinPath home "crash.log"

def userSettingsPath (home : String) : String := joinPath home "config.toml"

def projectSettingsPath (directory : String) : String :=
  joinPath (joinPath directory ".skillpath") "config.toml"

/-! ### Layers -/

namespace Settings

def parse (text : String) : Except Error Settings :=
  match Toml.decode text.toList with
  | .ok settings => .ok settings
  | .error fault => .error (.config fault.message)

def ofFile (files : Files) (path : String) : Except Error Settings := do
  parse (← files.read path)

def layer (files : Files) (path : String) : Option Settings :=
  (ofFile files path).toOption

def layered (user project : Option Settings) : Settings :=
  let settings := user.elim standard standard.merge
  project.elim settings settings.merge

/-- The settings for a home directory and a working directory, with warnings about the
environment. -/
def load (env : Environment) (files : Files) (home directory : String) :
    Settings × List String :=
  (layered (layer files (userSettingsPath home))
    (layer files (projectSettingsPath directory))).withEnvironment env

end Settings

end PokerCoach
