import SharedState.Duration
import SharedState.Error
import SharedState.Settings.Address
import SharedState.Store.Basic

/-!
# Settings

The settings of the server, their defaults, and the rules that they must obey together.
-/

namespace SharedState

/-- The settings of the server. -/
structure Settings where
  address : SocketAddress := .v4 (.replicate 4 0) 8080
  maxDocumentBytes : Nat := 4194304
  defaultTimeout : Duration := .ofSeconds 30
  maxTimeout : Duration := .ofSeconds 120
  policy : Policy := .ignore
  workerThreads : Nat := 0
  prometheus : Bool := true
  logLevel : String := "info"
  logFormat : String := "pretty"
deriving DecidableEq

def Policy.ofName? (name : String) : Option Policy :=
  if name = "ignore" then some .ignore
  else if name = "reject" then some .reject
  else none

def Policy.read (name : String) : Except Error Policy :=
  match ofName? name with
  | some policy => .ok policy
  | none => .error (.settings
      s!"Invalid unknown key policy: {name}. Valid options: ignore, reject")

def Policy.name : Policy → String
  | .ignore => "ignore"
  | .reject => "reject"

namespace Settings

def logLevels : List String := ["trace", "debug", "info", "warn", "error"]

def logFormats : List String := ["pretty", "compact"]

/-- A refusal of settings that break a rule; the first broken one is named. -/
def validate (s : Settings) : Except Error Unit :=
  if s.defaultTimeout.nanoseconds = 0 then .error (.settings "Long-poll timeout must be positive")
  else if s.maxTimeout.nanoseconds < s.defaultTimeout.nanoseconds then
    .error (.settings "Long-poll default timeout exceeds the maximum timeout")
  else if s.maxDocumentBytes < 1024 then
    .error (.settings "Max document size too small (minimum 1KB)")
  else if 1024 < s.workerThreads then
    .error (.settings "Too many worker threads (maximum 1024)")
  else if s.logLevel ∉ logLevels then .error (.settings "Invalid log level")
  else if s.logFormat ∉ logFormats then .error (.settings "Invalid log format")
  else .ok ()

/-- The number of worker threads; none is given if it is to be found out. -/
def workers? (s : Settings) : Option Nat :=
  if s.workerThreads = 0 then none else some s.workerThreads

/-- The time that a client may wait: what it asks for or the default, but not too long. -/
def longPollTimeout (s : Settings) (requested : Option Duration) : Duration :=
  (requested.getD s.defaultTimeout).min s.maxTimeout

end Settings

end SharedState
