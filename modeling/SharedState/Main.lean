import SharedState.CommandLine

/-!
# The program

Reads the environment and the settings file, and does what becomes of the command line.
-/

namespace SharedState.CommandLine

def variableNames : List String :=
  ["EM_HTTP_ADDR", "EM_LONG_POLL_TIMEOUT", "EM_WORKER_THREADS", "EM_UNKNOWN_KEYS", "EM_LOG_LEVEL",
    "EM_LOG_FORMAT"]

def contentOf (path : String) : IO (Except Settings.FileFault ByteArray) := do
  try
    return .ok (← IO.FS.readBinFile path)
  catch
    | .inappropriateType _ code _ =>
      return .error (if code = 21 then .isDirectory else .notDirectory)
    | .invalidArgument .. => return .error .nameTooLong
    | _ => return .error .notFound

def environment : IO (List (String × String)) := do
  let found ← variableNames.mapM fun name => do
    return (← IO.getEnv name).map fun value => (name, value)
  return found.filterMap id

end SharedState.CommandLine

open SharedState.CommandLine

/-- The command line. Serving itself needs a transport, which is no part of this library. -/
def main (args : List String) : IO UInt32 := do
  let content ← match request? args with
    | some (.serve flags) => contentOf flags.path
    | _ => pure (.error .notFound)
  let outcome := run args (← environment) fun _ => content
  match outcome with
  | .shown text => IO.print text
  | .misused => IO.eprintln "Usage: exposed-model [OPTIONS]"
  | .refused error => IO.eprint (failureText error)
  | .serving settings _ => IO.println settings.address.display
  return outcome.exitCode.toUInt32
