/-!
What the program reports to its log at the level of a warning or above.
-/

namespace ChatCommands

inductive Warning where
  | invalidInteger
  | invalidFloat
  | invalidBoolean
  | noConfigFile
  | malformedConfig
  | configNotMapping
  | invalidSetting
  | malformedStore
  | malformedCommand
  | malformedServerId
  | requestFailed
  | commandFailed
  | unexpectedFailure
  | errorNotSent
  | outputNotSent
  | builtinFailed
deriving DecidableEq

/-- The part of the program that reports, and the form of its report. -/
def Warning.text : Warning → String
  | .invalidInteger => "ccbot.utils: Invalid integer for %s=%s. Falling back to %s."
  | .invalidFloat => "ccbot.utils: Invalid float for %s=%s. Falling back to %s."
  | .invalidBoolean => "ccbot.utils: Invalid boolean for %s=%s. Falling back to %s."
  | .noConfigFile => "ccbot.config: Config file %s does not exist; using environment only."
  | .malformedConfig => "ccbot.config: Failed to parse config file %s: %s"
  | .configNotMapping => "ccbot.config: Config file %s must contain a mapping; ignoring it."
  | .invalidSetting =>
    "ccbot.config: Invalid value for %s=%r in config file. Falling back to %s."
  | .malformedStore => "ccbot.store: Failed to parse command store %s: %s"
  | .malformedCommand => "ccbot.store: Skipping malformed custom command entry %s: %s"
  | .malformedServerId => "ccbot.store: Skipping guild settings with malformed id %r"
  | .requestFailed => "ccbot.web: Web request %s %s failed: %s"
  | .commandFailed => "ccbot.commands: Custom command %s failed for %s: %s"
  | .unexpectedFailure => "ccbot.commands: Unexpected failure running custom command %s"
  | .errorNotSent => "ccbot.commands: Failed to send custom command error embed: %s"
  | .outputNotSent => "ccbot.commands: Failed to deliver custom command output: %s"
  | .builtinFailed => "ccbot: Command %s failed"

end ChatCommands
