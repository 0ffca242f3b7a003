import PokerCoach.Session.Memory

/-!
# Settings

What a user can set. Settings come in layers: each layer overrides those below it, but only with
values that are valid and differ from the standard ones.
-/

namespace PokerCoach

structure Settings where
  /-- What a marginal outcome earns toward the accuracy. -/
  marginalCredit : Float := 0.0
  /-- The accuracy at which a practiced skill is no longer taught. -/
  practicingSplit : Float := 0.60
  cadence : Cadence := {}
  /-- A curriculum file in place of the standard curriculum. -/
  curriculumPath : Option String := none
  logLevel : String := "warn"
  eventsEnabled : Bool := true
  deriving DecidableEq

namespace Settings

def standard : Settings := {}

instance : Inhabited Settings := ⟨standard⟩

def isRatio (x : Float) : Bool :=
  inUnit x

def logLevels : List String := ["trace", "debug", "info", "warn", "error", "off"]

def isLogLevel (level : String) : Bool :=
  logLevels.contains level

/-- The upper value if it differs from the standard one and is valid. -/
def override {α : Type} [BEq α] (valid : α → Bool) (default lower upper : α) : α :=
  if upper != default && valid upper then upper else lower

def merge (lower upper : Settings) : Settings where
  marginalCredit :=
    override isRatio standard.marginalCredit lower.marginalCredit upper.marginalCredit
  practicingSplit :=
    override isRatio standard.practicingSplit lower.practicingSplit upper.practicingSplit
  cadence :=
    { maxSurfaces :=
        override (fun _ => true) standard.cadence.maxSurfaces lower.cadence.maxSurfaces
          upper.cadence.maxSurfaces
      minHandsBetween :=
        override (fun _ => true) standard.cadence.minHandsBetween lower.cadence.minHandsBetween
          upper.cadence.minHandsBetween }
  curriculumPath := upper.curriculumPath.or lower.curriculumPath
  logLevel := override isLogLevel standard.logLevel lower.logLevel upper.logLevel
  eventsEnabled :=
    override (fun _ => true) standard.eventsEnabled lower.eventsEnabled upper.eventsEnabled

end Settings

end PokerCoach
