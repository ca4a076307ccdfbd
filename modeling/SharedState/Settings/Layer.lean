import SharedState.Settings.Reader

/-!
# Layers of settings

Settings come in layers: the defaults, then a settings file, then the environment, then the flags of
the command line. A layer above the file gives raw texts for some of the settings, which are read
when the layer is laid over the ones below; texts that cannot be read are refused in a fixed order.
-/

namespace SharedState

namespace Settings

/-- Why a file cannot be read. -/
inductive FileFault
  | notFound
  | notDirectory
  | isDirectory
  | nameTooLong
  | nulInName
  | notText
deriving DecidableEq

def FileFault.message : FileFault → String
  | .notFound => "No such file or directory (os error 2)"
  | .notDirectory => "Not a directory (os error 20)"
  | .isDirectory => "Is a directory (os error 21)"
  | .nameTooLong => "File name too long (os error 36)"
  | .nulInName => "file name contained an unexpected NUL byte"
  | .notText => "stream did not contain valid UTF-8"

/-- The settings in a file, given what reading the file yields. -/
def ofFile (content : Except FileFault ByteArray) : Except Error Settings :=
  let text := do
    match String.fromUTF8? (← content) with
    | some text => .ok text
    | none => .error .notText
  match text with
  | .ok text => ofToml text
  | .error fault => .error (.settings s!"Failed to read config file: {fault.message}")

/-- Raw texts for some of the settings, and what the number of workers is called. -/
structure Layer where
  workersName : String
  address : Option String := none
  timeout : Option String := none
  workers : Option String := none
  policy : Option String := none
  logLevel : Option String := none
  logFormat : Option String := none
deriving DecidableEq

/-- A setting that keeps its value if the layer says nothing of it. -/
def given (value : Option String) (current : α) (read : String → Except Error α) : Except Error α :=
  match value with
  | none => .ok current
  | some text => read text

def readAddress (text : String) : Except Error SocketAddress :=
  match SocketAddress.read? text.toList with
  | some address => .ok address
  | none => .error (.settings "Invalid HTTP address: invalid socket address syntax")

def readTimeout (text : String) : Except Error Duration :=
  match Duration.read text.toList with
  | .ok d => .ok d
  | .error unit => .error (.settings s!"Invalid long-poll timeout: {unit.message}")

def readWorkers (name text : String) : Except Error Nat :=
  match Text.readNat Text.maxWord text.toList with
  | .ok n => .ok n
  | .error fault => .error (.settings s!"Invalid {name}: {fault.message}")

/-- The settings with a layer laid over them. -/
def overlay (s : Settings) (layer : Layer) : Except Error Settings := do
  let address ← given layer.address s.address readAddress
  let defaultTimeout ← given layer.timeout s.defaultTimeout readTimeout
  let workerThreads ← given layer.workers s.workerThreads (readWorkers layer.workersName)
  let policy ← given layer.policy s.policy Policy.read
  return { s with
    address, defaultTimeout, workerThreads, policy
    logLevel := layer.logLevel.getD s.logLevel
    logFormat := layer.logFormat.getD s.logFormat }

/-- The name of the settings file that is looked for where no other is named. -/
def defaultFile : String := "exposed-model.toml"

/-- The layer of the environment, given its variables. -/
def environment (vars : List (String × String)) : Layer where
  workersName := "worker threads"
  address := vars.lookup "EM_HTTP_ADDR"
  timeout := vars.lookup "EM_LONG_POLL_TIMEOUT"
  workers := vars.lookup "EM_WORKER_THREADS"
  policy := vars.lookup "EM_UNKNOWN_KEYS"
  logLevel := vars.lookup "EM_LOG_LEVEL"
  logFormat := vars.lookup "EM_LOG_FORMAT"

/-- The settings of the default file, if there is one, with the environment over them, validated. -/
def load (file : Option (Except FileFault ByteArray)) (vars : List (String × String)) :
    Except Error Settings := do
  let base ← match file with
    | some content => ofFile content
    | none => .ok {}
  let s ← base.overlay (environment vars)
  s.validate
  return s

end Settings

end SharedState
