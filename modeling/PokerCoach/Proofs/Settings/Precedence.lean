import PokerCoach.Proofs.Settings.Keys
import Mathlib.Logic.Function.Basic

/-!
# Which layer sets a key

The environment goes before the project, the project before the user and the user before the
standard settings. What is invalid in one place leaves the key to the next one, whatever is said of
other keys.
-/

namespace PokerCoach.Settings

namespace Key

theorem valid_standard (key : Key) : key.valid (key.value standard) = true := by
  cases key <;> decide

theorem valid_of_mem_fromLayer {key : Key} {layer : Option Settings} {value : key.Value}
    (hvalue : key.fromLayer layer = some value) : key.valid value = true := by
  have hfilter := (Option.filter_eq_some_iff.mp hvalue).2
  exact (Bool.and_eq_true_iff.mp hfilter).2

theorem valid_of_ofText? {key : Key} {text : String} {value : key.Value}
    (hvalue : key.ofText? text = some value) : key.valid value = true := by
  cases key with
  | marginalCredit | practicingSplit => exact (Option.filter_eq_some_iff.mp hvalue).2
  | logLevel =>
      change readLogLevel? text = some value at hvalue
      rw [readLogLevel?] at hvalue
      exact (Option.filter_eq_some_iff.mp hvalue).2
  | maxSurfaces | minHandsBetween | curriculumPath | eventsEnabled => rfl

theorem valid_layered (key : Key) (user project : Option Settings) :
    key.valid (key.value (layered user project)) = true := by
  rw [value_layered]
  cases hproject : key.fromLayer project with
  | some value => exact valid_of_mem_fromLayer hproject
  | none =>
      cases huser : key.fromLayer user with
      | some value => exact valid_of_mem_fromLayer huser
      | none => exact key.valid_standard

theorem valid_withEnvironment {key : Key} {settings : Settings}
    (hvalid : key.valid (key.value settings) = true) (env : Environment) :
    key.valid (key.value (settings.withEnvironment env).1) = true := by
  rw [value_withEnvironment]
  cases env key.variableName with
  | none => exact hvalid
  | some text =>
      rw [Option.elim_some]
      cases htext : key.ofText? text with
      | some value => exact valid_of_ofText? htext
      | none =>
          by_cases hkey : key = eventsEnabled
          · subst hkey
            rfl
          · rwa [Option.getD_none, afterRefusal_of_ne hkey]

end Key

/-! ### Layers that cannot be read -/

theorem ext_value {settings other : Settings}
    (hvalue : ∀ key : Key, key.value settings = key.value other) : settings = other := by
  obtain ⟨_, _, ⟨_, _⟩, _, _, _⟩ := settings
  obtain ⟨_, _, ⟨_, _⟩, _, _, _⟩ := other
  congr
  · exact hvalue .marginalCredit
  · exact hvalue .practicingSplit
  · exact hvalue .maxSurfaces
  · exact hvalue .minHandsBetween
  · exact hvalue .curriculumPath
  · exact hvalue .logLevel
  · exact hvalue .eventsEnabled

theorem Key.fromLayer_standard (key : Key) : key.fromLayer (some standard) = none := by
  cases key <;> decide

theorem merge_standard (settings : Settings) : settings.merge standard = settings := by
  apply ext_value
  intro key
  rw [Key.value_merge_eq_getD, key.fromLayer_standard, Option.getD_none]

theorem parse_empty : parse "" = .ok standard :=
  rfl

theorem layer_update (files : Files) (path other : String) :
    layer (Function.update files path (.text "")) other =
      if other = path then some standard else layer files other := by
  by_cases hsame : other = path
  · rw [if_pos hsame, layer, ofFile, Files.read, hsame, Function.update_self]
    exact congrArg Except.toOption parse_empty
  · rw [if_neg hsame, layer, ofFile, Files.read, Function.update_of_ne hsame]
    rfl

/-- A file that is missing, or of which no settings can be read, acts on the settings below like an
empty one. -/
theorem elim_layer_update {files : Files} {path : String} {error : Error}
    (hunread : ofFile files path = .error error) (other : String) (settings : Settings) :
    (layer (Function.update files path (.text "")) other).elim settings settings.merge =
      (layer files other).elim settings settings.merge := by
  rw [layer_update]
  by_cases hsame : other = path
  · have hnone : layer files other = none := by
      rw [hsame, layer, hunread]
      rfl
    rw [if_pos hsame, hnone]
    exact merge_standard settings
  · rw [if_neg hsame]

/-! ### Loaded settings -/

theorem load_update {files : Files} {path : String} {error : Error}
    (hunread : ofFile files path = .error error) (env : Environment) (home directory : String) :
    load env (Function.update files path (.text "")) home directory =
      load env files home directory := by
  unfold load layered
  dsimp only
  rw [elim_layer_update hunread, elim_layer_update hunread]

/-- The value of a key from what its variable says and what the layers set. -/
def Key.resolve (key : Key) (text : Option String) (project user : Option key.Value) : key.Value :=
  let below := (project.or user).getD (key.value standard)
  text.elim below fun text => (key.ofText? text).getD (key.afterRefusal below)

theorem Key.resolve_of_ne {key : Key} (hkey : key ≠ .eventsEnabled) (text : Option String)
    (project user : Option key.Value) :
    key.resolve text project user =
      ((text.bind key.ofText?).or (project.or user)).getD (key.value standard) := by
  cases text with
  | none => rfl
  | some text =>
      dsimp only [Key.resolve]
      rw [Option.elim_some, Key.afterRefusal_of_ne hkey, Option.bind_some]
      exact Option.getD_or.symm

theorem value_load (key : Key) (env : Environment) (files : Files) (home directory : String) :
    key.value (load env files home directory).1 =
      key.resolve (env key.variableName)
        (key.fromLayer (layer files (projectSettingsPath directory)))
        (key.fromLayer (layer files (userSettingsPath home))) := by
  rw [load, Key.value_withEnvironment, Key.value_layered]
  rfl

/-- A key is set by its variable if this is set and acceptable, else by the project if its value is
valid and not the standard one, else by the user likewise, and else it has its standard value.
Settings are valid, layers that cannot be read act like empty ones, and nothing that is said of one
key has an effect on another. -/
theorem load_follows_precedence (env : Environment) (files : Files) (home directory : String) :
    let user := layer files (userSettingsPath home)
    let project := layer files (projectSettingsPath directory)
    let settings := (load env files home directory).1
    (∀ key : Key, key ≠ .eventsEnabled →
      key.value settings =
        (((env key.variableName).bind key.ofText?).or
          ((key.fromLayer project).or (key.fromLayer user))).getD (key.value standard)) ∧
    isRatio settings.marginalCredit = true ∧ isRatio settings.practicingSplit = true ∧
    settings.logLevel ∈ logLevels ∧
    (∀ path error, ofFile files path = .error error →
      load env (Function.update files path (.text "")) home directory =
        load env files home directory) ∧
    ∀ (key : Key) (otherEnv : Environment) (otherFiles : Files) (otherHome otherDirectory : String),
      otherEnv key.variableName = env key.variableName →
      (layer otherFiles (userSettingsPath otherHome)).map key.value = user.map key.value →
      (layer otherFiles (projectSettingsPath otherDirectory)).map key.value =
        project.map key.value →
      key.value (load otherEnv otherFiles otherHome otherDirectory).1 = key.value settings := by
  intro user project settings
  have hvalid (key : Key) : key.valid (key.value settings) = true :=
    Key.valid_withEnvironment (key.valid_layered user project) env
  refine ⟨?_, hvalid .marginalCredit, hvalid .practicingSplit, ?_, ?_, ?_⟩
  · intro key hkey
    rw [value_load, Key.resolve_of_ne hkey]
  · exact List.contains_iff_mem.mp (hvalid .logLevel)
  · intro path error hunread
    exact load_update hunread env home directory
  · intro key otherEnv otherFiles otherHome otherDirectory henv huser hproject
    rw [value_load, value_load, henv, Key.fromLayer, Key.fromLayer, huser, hproject]
    rfl

/-- A ratio, a count and a level of the environment go before the layers. A ratio beyond one, a
level that is none and a negative count leave their keys to the user, and a file that is no TOML
sets none. -/
theorem load_follows_precedence_of_mixed_values :
    let files : Files := fun path =>
      if path = "/h/config.toml" then
        .text "[coaching]\npracticing_split = 0.75\n[session]\nmax_surfaces_per_skill = 9\n"
      else if path = "/w/.skillpath/config.toml" then
        .text <| "[coaching]\nmarginal_credit = 0.25\npracticing_split = 1.5\n" ++
          "[logging]\nlevel = \"loud\"\n"
      else if path = "/x/.skillpath/config.toml" then .text "[[[ broken"
      else .missing
    let env : Environment := fun name =>
      if name = "SKILLPATH_MARGINAL_CREDIT" then some "0.5"
      else if name = "SKILLPATH_MAX_SURFACES" then some "-1"
      else if name = "SKILLPATH_MIN_HANDS_BETWEEN" then some "4"
      else if name = "SKILLPATH_LOG_LEVEL" then some "DEBUG"
      else none
    let settings := (load env files "/h" "/w").1
    settings.marginalCredit = 0.5 ∧ settings.practicingSplit = 0.75 ∧
      settings.cadence.maxSurfaces = 9 ∧ settings.cadence.minHandsBetween = 4 ∧
      settings.logLevel = "debug" ∧
      load env (Function.update files "/x/.skillpath/config.toml" (.text "")) "/h" "/x" =
        load env files "/h" "/x" ∧
      (load (Function.update env "SKILLPATH_EVENTS" (some "0")) files "/h" "/w").1.logLevel =
        "debug" := by
  intro files env settings
  obtain ⟨-, -, -, -, hunread, -⟩ := load_follows_precedence env files "/h" "/x"
  obtain ⟨hset, -, -, -, -, hapart⟩ := load_follows_precedence env files "/h" "/w"
  have hlevel : settings.logLevel = "debug" :=
    (hset .logLevel (by decide)).trans (by decide +kernel)
  refine ⟨(hset .marginalCredit (by decide)).trans (by decide +kernel),
    (hset .practicingSplit (by decide)).trans (by decide +kernel),
    (hset .maxSurfaces (by decide)).trans (by decide +kernel),
    (hset .minHandsBetween (by decide)).trans (by decide +kernel), hlevel, ?_, ?_⟩
  · cases hbroken : ofFile files "/x/.skillpath/config.toml" with
    | error error => exact hunread _ error hbroken
    | ok broken =>
        have hnone : (ofFile files "/x/.skillpath/config.toml").toOption.isNone = true := by
          decide +kernel
        rw [hbroken] at hnone
        cases hnone
  · have henv : Function.update env "SKILLPATH_EVENTS" (some "0") Key.logLevel.variableName =
        env Key.logLevel.variableName := Function.update_of_ne (by decide) _ _
    exact (hapart .logLevel _ files "/h" "/w" henv rfl rfl).trans hlevel

/-! ### Refused variables -/

/-- A variable whose text is not acceptable for its key leaves the key as the layers set it, except
for the switch of the events, which such a text turns off. -/
theorem withEnvironment_of_refused (user project : Option Settings) (env : Environment) (key : Key)
    {text : String} (hset : env key.variableName = some text)
    (hrefused : key.ofText? text = none) :
    let settings := layered user project
    (key ≠ .eventsEnabled →
      key.value (settings.withEnvironment env).1 = key.value settings) ∧
    (key = .eventsEnabled → (settings.withEnvironment env).1.eventsEnabled = false) := by
  intro settings
  have hvalue : key.value (settings.withEnvironment env).1 =
      key.afterRefusal (key.value settings) := by
    rw [Key.value_withEnvironment, hset, Option.elim_some, hrefused, Option.getD_none]
  constructor
  · intro hkey
    rw [hvalue, Key.afterRefusal_of_ne hkey]
  · rintro rfl
    exact hvalue

theorem withEnvironment_of_refused_split :
    let user : Settings := { practicingSplit := 0.75 }
    let env : Environment := fun name =>
      if name = "SKILLPATH_PRACTICING_SPLIT" then some "lots"
      else if name = "SKILLPATH_EVENTS" then some "on"
      else none
    let settings := ((layered (some user) none).withEnvironment env).1
    settings.practicingSplit = 0.75 ∧ settings.eventsEnabled = false := by
  intro user env settings
  have hsplit := withEnvironment_of_refused (some user) none env .practicingSplit
    (show _ = some "lots" by rfl) (by decide +kernel)
  have hevents := withEnvironment_of_refused (some user) none env .eventsEnabled
    (show _ = some "on" by rfl) (by decide)
  exact ⟨(hsplit.1 (by decide)).trans (by decide +kernel), hevents.2 rfl⟩

/-- Without any file the events are on, but a word that is no spelling of a switch turns them
off. -/
theorem refused_word_turns_events_off :
    let env : Environment := fun name => if name = "SKILLPATH_EVENTS" then some "yes" else none
    let files : Files := fun _ => .missing
    Key.ofText? .eventsEnabled "yes" = none ∧
      (layered (layer files (userSettingsPath "/h"))
        (layer files (projectSettingsPath "/w"))).eventsEnabled = true ∧
      (load env files "/h" "/w").1.eventsEnabled = false := by
  decide

end PokerCoach.Settings
