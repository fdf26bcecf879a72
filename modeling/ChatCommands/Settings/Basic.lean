import ChatCommands.Number.Basic
import ChatCommands.Settings.FilePath
import ChatCommands.Yaml.Datum

/-!
The settings of the bot.

A variable of the environment wins over the config file, and the file over the default. A value that
cannot be used is passed over with a warning.
-/

namespace ChatCommands

structure Settings where
  token : Option Text
  ownPrefix : Text
  storeFile : FilePath
  maxSteps : Int
  requestTimeout : Binary64
  requestsEnabled : Bool
  logLevel : Text
deriving DecidableEq

namespace Settings

def defaultPrefix : Text := ['!']
def defaultStoreFile : FilePath := .ofText "custom_commands.json".toList
def defaultMaxSteps : Int := 1000
def defaultTimeout : Binary64 := .ofInt 10
def defaultLogLevel : Text := "INFO".toList

/-- The shortest time that a request is given, in seconds. -/
def leastTimeout : Binary64 := .ofDecimal false 1 (-1)

/-- A text with every end of a line written as one character. -/
def unifyBreaks : Text → Text
  | [] => []
  | '\r' :: '\n' :: rest => '\n' :: unifyBreaks rest
  | c :: rest => (if c = '\r' then '\n' else c) :: unifyBreaks rest

abbrev FileValues := List (Yaml.Atom × Yaml.Datum)

/-- The values in the text of a config file. A file that is malformed or holds no map gives none,
with a warning unless it is empty. -/
def fileValues (t : Text) : Except Crash (Noted FileValues) :=
  match Yaml.Datum.read (unifyBreaks t) with
  | .error .malformed => .ok (.warn .malformedConfig [])
  | .error (.crash c) => .error c
  | .ok (.map pairs) => .ok (pure pairs)
  | .ok d => .ok (if d.truth then .warn .configNotMapping [] else pure [])

/-- The values of the file that the environment names. `file` is the text of that file, if it
exists. -/
def configValues (env : Environment) (file : Option Text) : Except Crash (Noted FileValues) := do
  match ← FilePath.ofEnvironment env "CCBOT_CONFIG_FILE".toList with
  | none => return pure []
  | some _ =>
    match file with
    | none => return .warn .noConfigFile []
    | some t => fileValues t

/-- The value of a key in the file as `read` takes it, or the default. -/
def valueAs (read : Yaml.Datum → Except Crash α) (values : FileValues) (key : String)
    (fallback : α) : Except Crash (Noted α) :=
  match Yaml.Datum.valueAt key.toList values with
  | none | some (.atom (.scalar .null)) => .ok (pure fallback)
  | some d =>
    match read d with
    | .ok a => .ok (pure a)
    | .error c => if c.escapes then .error c else .ok (.warn .invalidSetting fallback)

/-- The truth value that a datum stands for, by its text if it is none itself. -/
def truthOf (d : Yaml.Datum) : Except Crash Bool :=
  match d with
  | .atom (.scalar (.bool b)) => .ok b
  | d =>
    d.display.bind fun t =>
      match Environment.truthOf? t with
      | some b => .ok b
      | none => .error .wrongKind

/-- The larger of two numbers, the first unless the second is larger. -/
def atLeast (least x : Binary64) : Binary64 :=
  if (Number.float least).compare? (.float x) = some .lt then x else least

/-- What the file sets, with the defaults for the rest. The token is no matter of the file. -/
def ofFile (env : Environment) (values : FileValues) : Except Crash (Noted Settings) := do
  let own ← valueAs Yaml.Datum.display values "prefix" defaultPrefix
  let storeFile ←
    valueAs (fun d => d.display.bind fun t => (FilePath.ofText t).expandHome env) values
      "store_file" defaultStoreFile
  let steps ← valueAs Yaml.Datum.toInteger values "max_steps" defaultMaxSteps
  let timeout ← valueAs Yaml.Datum.toFloat values "webrequest_timeout" defaultTimeout
  let enabled ← valueAs truthOf values "webrequests_enabled" true
  return do
    return {
      token := none, ownPrefix := ← own, storeFile := ← storeFile, maxSteps := ← steps
      requestTimeout := ← timeout, requestsEnabled := ← enabled, logLevel := defaultLogLevel }

/-- What the environment sets, with the settings of the file for the rest. -/
def ofEnvironment (env : Environment) (file : Settings) : Except Crash (Noted Settings) := do
  let storeFile ← FilePath.ofEnvironment env "CCBOT_STORE_FILE".toList
  return do
    let steps ← env.integer "CCBOT_MAX_STEPS".toList file.maxSteps
    let timeout ← env.float "CCBOT_WEBREQUEST_TIMEOUT".toList file.requestTimeout
    let enabled ← env.bool "CCBOT_WEBREQUESTS_ENABLED".toList file.requestsEnabled
    return {
      token := env.get? "DISCORD_TOKEN".toList
      ownPrefix := (env.trimmed? "CCBOT_PREFIX".toList).getD file.ownPrefix
      storeFile := storeFile.getD file.storeFile
      maxSteps := if steps < 1 then 1 else steps
      requestTimeout := atLeast leastTimeout timeout
      requestsEnabled := enabled
      logLevel := (env.get? "CCBOT_LOG_LEVEL".toList).getD defaultLogLevel }

/-- Whether the token is there and not empty. -/
def hasToken (env : Environment) : Bool :=
  (env.get? "DISCORD_TOKEN".toList).any fun t => !t.isEmpty

/-- The settings, from the environment and the config file that it names. -/
def load (env : Environment) (file : Option Text) (tokenRequired : Bool) :
    Except Crash (Noted Settings) :=
  if tokenRequired && !hasToken env then .error .missingToken
  else do
    let values ← configValues env file
    let base ← ofFile env values.value
    let final ← ofEnvironment env base.value
    return ⟨final.value, values.warnings ++ base.warnings ++ final.warnings⟩

end Settings

end ChatCommands
