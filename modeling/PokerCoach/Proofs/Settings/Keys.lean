import PokerCoach.Settings.Load

/-!
# The keys of the settings

Each key is one matter that a layer or a variable of the environment can set. Layers and variables
act on a key by what they say of this key alone.
-/

namespace PokerCoach.Settings

inductive Key where
  | marginalCredit
  | practicingSplit
  | maxSurfaces
  | minHandsBetween
  | curriculumPath
  | logLevel
  | eventsEnabled
  deriving DecidableEq

namespace Key

@[reducible]
def Value : Key → Type
  | marginalCredit | practicingSplit => Float
  | maxSurfaces | minHandsBetween => UInt32
  | curriculumPath => Option String
  | logLevel => String
  | eventsEnabled => Bool

instance : (key : Key) → BEq key.Value
  | marginalCredit | practicingSplit => inferInstanceAs (BEq Float)
  | maxSurfaces | minHandsBetween => inferInstanceAs (BEq UInt32)
  | curriculumPath => inferInstanceAs (BEq (Option String))
  | logLevel => inferInstanceAs (BEq String)
  | eventsEnabled => inferInstanceAs (BEq Bool)

def value : (key : Key) → Settings → key.Value
  | marginalCredit => Settings.marginalCredit
  | practicingSplit => Settings.practicingSplit
  | maxSurfaces => fun settings => settings.cadence.maxSurfaces
  | minHandsBetween => fun settings => settings.cadence.minHandsBetween
  | curriculumPath => Settings.curriculumPath
  | logLevel => Settings.logLevel
  | eventsEnabled => Settings.eventsEnabled

/-- Whether a value is one that the key may have. -/
def valid : (key : Key) → key.Value → Bool
  | marginalCredit | practicingSplit => isRatio
  | maxSurfaces | minHandsBetween => fun _ => true
  | curriculumPath => fun _ => true
  | logLevel => isLogLevel
  | eventsEnabled => fun _ => true

/-- The variable of the environment that sets the key. -/
def variableName : Key → String
  | marginalCredit => "SKILLPATH_MARGINAL_CREDIT"
  | practicingSplit => "SKILLPATH_PRACTICING_SPLIT"
  | maxSurfaces => "SKILLPATH_MAX_SURFACES"
  | minHandsBetween => "SKILLPATH_MIN_HANDS_BETWEEN"
  | curriculumPath => "SKILLPATH_CURRICULUM"
  | logLevel => "SKILLPATH_LOG_LEVEL"
  | eventsEnabled => "SKILLPATH_EVENTS"

/-- The spellings of a switch. -/
def readSwitch? (word : String) : Option Bool :=
  if word = "true" ∨ word = "1" then some true
  else if word = "false" ∨ word = "0" then some false
  else none

/-- The value that a text stands for, if it is acceptable for the key. -/
def ofText? : (key : Key) → String → Option key.Value
  | marginalCredit | practicingSplit => readRatio?
  | maxSurfaces | minHandsBetween => Decimal.readCount?
  | curriculumPath => fun path => some (if path.isEmpty then none else some path)
  | logLevel => readLogLevel?
  | eventsEnabled => readSwitch?

/-- The value that a layer sets: one that differs from the standard value and is valid. -/
def fromLayer (key : Key) (layer : Option Settings) : Option key.Value :=
  (layer.map key.value).filter fun value => value != key.value standard && key.valid value

/-- What a variable leaves behind whose text is not acceptable. -/
def afterRefusal : (key : Key) → key.Value → key.Value
  | eventsEnabled => fun _ => false
  | _ => id

theorem afterRefusal_of_ne {key : Key} (hkey : key ≠ eventsEnabled) (value : key.Value) :
    key.afterRefusal value = value := by
  cases key <;> first | rfl | exact absurd rfl hkey

/-! ### Layers -/

theorem value_merge (key : Key) (lower upper : Settings) :
    key.value (lower.merge upper) =
      override key.valid (key.value standard) (key.value lower) (key.value upper) := by
  cases key with
  | curriculumPath =>
      show upper.curriculumPath.or lower.curriculumPath =
        override (fun _ => true) none lower.curriculumPath upper.curriculumPath
      cases upper.curriculumPath <;> rfl
  | _ => rfl

theorem value_merge_eq_getD (key : Key) (lower upper : Settings) :
    key.value (lower.merge upper) = (key.fromLayer (some upper)).getD (key.value lower) := by
  rw [value_merge, override, fromLayer, Option.map_some, Option.filter_some]
  split <;> rfl

/-- The project goes before the user, and the user before the standard settings. -/
theorem value_layered (key : Key) (user project : Option Settings) :
    key.value (layered user project) =
      ((key.fromLayer project).or (key.fromLayer user)).getD (key.value standard) := by
  have hlayer (layer : Option Settings) (below : Settings) :
      key.value (layer.elim below below.merge) = (key.fromLayer layer).getD (key.value below) := by
    cases layer with
    | none => rfl
    | some upper => exact key.value_merge_eq_getD below upper
  rw [layered, hlayer project, hlayer user]
  exact Option.getD_or.symm

/-! ### Variables -/

/-- The switch is off for each word that is not one of the two for on. -/
theorem getD_readSwitch? (word : String) :
    (readSwitch? word).getD false = (word == "true" || word == "1") := by
  by_cases hon : word = "true" ∨ word = "1"
  · rw [readSwitch?, if_pos hon]
    simpa using hon
  · rw [readSwitch?, if_neg hon]
    have hoff : (word == "true" || word == "1") = false := by simpa using hon
    rw [hoff]
    split <;> rfl

theorem fst_fromVariable {α : Type} (env : Environment) (name expected : String)
    (read : String → Option α) (kept : String) (current : α) :
    (fromVariable env name expected read kept current).1 =
      (env name).elim current fun text => (read text).getD current := by
  unfold fromVariable
  cases env name with
  | none => rfl
  | some text => cases hread : read text <;> simp [hread]

theorem value_withEnvironment (key : Key) (settings : Settings) (env : Environment) :
    key.value (settings.withEnvironment env).1 =
      (env key.variableName).elim (key.value settings) fun text =>
        (key.ofText? text).getD (key.afterRefusal (key.value settings)) := by
  cases key with
  | curriculumPath =>
      simp only [value, withEnvironment, variableName]
      cases env "SKILLPATH_CURRICULUM" <;> rfl
  | eventsEnabled =>
      simp only [value, withEnvironment, variableName]
      cases env "SKILLPATH_EVENTS" with
      | none => rfl
      | some word => exact (getD_readSwitch? word).symm
  | _ => exact fst_fromVariable _ _ _ _ _ _

end Key

end PokerCoach.Settings
