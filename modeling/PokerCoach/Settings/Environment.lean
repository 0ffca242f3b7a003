import PokerCoach.Settings.Basic
import PokerCoach.Decimal.Reader
import PokerCoach.Decimal.Notation
import PokerCoach.Text.Quoted

/-!
# Settings from the environment

Variables override every layer of settings. A value that does not fit is passed over with a warning,
except that of the event switch, where all but two words switch the events off.
-/

namespace PokerCoach

abbrev Environment := String → Option String

namespace Settings

/-- A setting after its variable, with a warning if the value does not fit. `kept` is the text of
the setting before it. -/
def fromVariable {α : Type} (env : Environment) (name expected : String)
    (read : String → Option α) (kept : String) (current : α) : α × List String :=
  match env name with
  | none => (current, [])
  | some text =>
      match read text with
      | some value => (value, [])
      | none =>
          (current, [s!"Warning: Invalid {name} value '{text}'. {expected} Using '{kept}'."])

def readRatio? (text : String) : Option Float :=
  (Decimal.readFloat? text).filter isRatio

/-- A log level in any case; no letter outside of ASCII has a lower-case form in one. -/
def readLogLevel? (text : String) : Option String :=
  (some (String.ofList (text.toList.map Char.toLower))).filter isLogLevel

def ratioExpected : String := "Must be a number in [0.0, 1.0]."

def countExpected : String := "Expected a non-negative integer."

def levelExpected : String :=
  s!"Valid values: {Text.quotedList logLevels}."

/-- The settings after the environment, and the warnings in the order of the variables. -/
def withEnvironment (settings : Settings) (env : Environment) : Settings × List String :=
  let (marginalCredit, w1) :=
    fromVariable env "SKILLPATH_MARGINAL_CREDIT" ratioExpected readRatio?
      (Decimal.plain settings.marginalCredit) settings.marginalCredit
  let (practicingSplit, w2) :=
    fromVariable env "SKILLPATH_PRACTICING_SPLIT" ratioExpected readRatio?
      (Decimal.plain settings.practicingSplit) settings.practicingSplit
  let (maxSurfaces, w3) :=
    fromVariable env "SKILLPATH_MAX_SURFACES" countExpected Decimal.readCount?
      (toString settings.cadence.maxSurfaces) settings.cadence.maxSurfaces
  let (minHandsBetween, w4) :=
    fromVariable env "SKILLPATH_MIN_HANDS_BETWEEN" countExpected Decimal.readCount?
      (toString settings.cadence.minHandsBetween) settings.cadence.minHandsBetween
  let curriculumPath :=
    match env "SKILLPATH_CURRICULUM" with
    | none => settings.curriculumPath
    | some path => if path.isEmpty then none else some path
  let (logLevel, w5) :=
    fromVariable env "SKILLPATH_LOG_LEVEL" levelExpected readLogLevel?
      settings.logLevel settings.logLevel
  let eventsEnabled :=
    match env "SKILLPATH_EVENTS" with
    | none => settings.eventsEnabled
    | some word => word == "true" || word == "1"
  ({ marginalCredit, practicingSplit, cadence := { maxSurfaces, minHandsBetween },
     curriculumPath, logLevel, eventsEnabled },
    w1 ++ w2 ++ w3 ++ w4 ++ w5)

end Settings

end PokerCoach
