import ChatCommands.Proofs.Number.Magnitude
import ChatCommands.Proofs.Number.Order
import ChatCommands.Proofs.Result
import ChatCommands.Settings.Basic

/-!
Where the settings come from, and what keeps them from being loaded.

Each setting is the value of its variable, else that of its key in the config file, else the
default; a value that cannot be read counts as none. The number of steps and the time of a request
are raised to their least values at the end, wherever they came from. A prefix has no such check:
the file may set an empty one.

A value of the file is left out only for some of the reasons for which it cannot be read. An
infinite number of steps and a time beyond all floating point numbers go past that check.
-/

namespace ChatCommands

/-! ### Texts of data -/

namespace Binary64

end Binary64

namespace Yaml

namespace Datum

end Datum

end Yaml

/-! ### One setting -/

namespace Settings

section Value

variable {α : Type} {read : Yaml.Datum → Except Crash α} {values : FileValues} {key : String}
  {fallback : α}

/-- The value of a key in the file, if it is there. Null counts as no value. -/
def written (values : FileValues) (key : String) : Option Yaml.Datum :=
  match Yaml.Datum.valueAt key.toList values with
  | some (.atom (.scalar .null)) => none
  | found => found

/-- The value of a key as `read` takes it, if the file has one that it takes. -/
def given (read : Yaml.Datum → Except Crash α) (values : FileValues) (key : String) : Option α :=
  (written values key).bind fun d => (read d).toOption

end Value

/-! ### All settings -/

/-- The path that a datum names, as the file may give one. -/
def pathOf (env : Environment) (d : Yaml.Datum) : Except Crash FilePath :=
  d.display.bind fun t => (FilePath.ofText t).expandHome env

/-- The settings as they follow from the environment and the values of the config file, and what
holds of them whatever the two say. -/
structure Settled (env : Environment) (values : FileValues) (s : Settings) : Prop where
  token : s.token = env.get? "DISCORD_TOKEN".toList
  ownPrefix : s.ownPrefix = ((env.trimmed? "CCBOT_PREFIX".toList).or
    (given Yaml.Datum.display values "prefix")).getD defaultPrefix
  storeFile : ∃ own, FilePath.ofEnvironment env "CCBOT_STORE_FILE".toList = .ok own ∧
    s.storeFile = (own.or (given (pathOf env) values "store_file")).getD defaultStoreFile
  maxSteps : s.maxSteps = max 1 ((((env.get? "CCBOT_MAX_STEPS".toList).bind Numeral.readInt).or
    (given Yaml.Datum.toInteger values "max_steps")).getD defaultMaxSteps)
  requestTimeout : s.requestTimeout = atLeast leastTimeout
    ((((env.get? "CCBOT_WEBREQUEST_TIMEOUT".toList).bind Numeral.readFloat).or
      (given Yaml.Datum.toFloat values "webrequest_timeout")).getD defaultTimeout)
  requestsEnabled : s.requestsEnabled =
    (((env.get? "CCBOT_WEBREQUESTS_ENABLED".toList).bind Environment.truthOf?).or
      (given truthOf values "webrequests_enabled")).getD true
  logLevel : s.logLevel = (env.get? "CCBOT_LOG_LEVEL".toList).getD defaultLogLevel
  least_steps : 1 ≤ s.maxSteps
  least_time : s.requestTimeout = leastTimeout ∨
    (Number.float leastTimeout).compare? (.float s.requestTimeout) = some .lt
  emptied : s.ownPrefix = [] ↔ env.trimmed? "CCBOT_PREFIX".toList = none ∧
    written values "prefix" = some (.atom (.scalar (.text [])))

/-- An empty prefix in the file is taken. -/
example : (load [("CCBOT_CONFIG_FILE".toList, "ccbot.yml".toList)] (some "prefix: ''".toList)
    false).map (fun s => s.value.ownPrefix) = .ok [] := by
  decide +kernel

end Settings

end ChatCommands
