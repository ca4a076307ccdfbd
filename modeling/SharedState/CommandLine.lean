import SharedState.Program
import SharedState.Settings.Layer
import SharedState.Text.Quoted

/-!
# The command line

Arguments are options with a value, switches, and nothing else. They are taken from the left: a
request for help or for the version is answered at once, and whatever follows it is not looked at;
anything wrong before it makes the whole line a misuse. An option takes its value from what follows
it in the same argument, or from the next argument if that does not look like an option. No option
is given twice.
-/

namespace SharedState.CommandLine

open Settings (FileFault)

/-- The options that take a value. -/
inductive ValueOption
  | file
  | address
  | logLevel
  | timeout
  | workers
deriving DecidableEq

/-- The options without a value. -/
inductive Switch
  | noDemo
  | help
  | version
deriving DecidableEq

/-- What the options say. -/
structure Flags where
  file : Option String := none
  address : Option String := none
  logLevel : Option String := none
  timeout : Option String := none
  workers : Option String := none
  noDemo : Bool := false
deriving DecidableEq

/-- What the arguments ask for. -/
inductive Request
  | help
  | version
  | serve (flags : Flags)
deriving DecidableEq

/-! ## Arguments -/

/-- One argument on its own. -/
inductive Argument
  | switch (given : Switch)
  | option (wanted : ValueOption) (value : Option String)
  | separator
  | unknown
deriving DecidableEq

def optionNamed? (name : String) : Option ValueOption :=
  [("config", .file), ("http-addr", .address), ("log-level", .logLevel),
    ("long-poll-timeout", .timeout), ("workers", .workers)].lookup name

def switchNamed? (name : String) : Option Switch :=
  [("no-demo", .noDemo), ("help", .help), ("version", .version)].lookup name

def attached? : List Char → Option String
  | '=' :: value => some (String.ofList value)
  | _ => none

def Argument.long (text : List Char) : Argument :=
  let (name, rest) := text.span (· ≠ '=')
  let name := String.ofList name
  match optionNamed? name, switchNamed? name with
  | some wanted, _ => .option wanted (attached? rest)
  | none, some given => if rest = [] then .switch given else .unknown
  | none, none => .unknown

/-- An argument after one hyphen. What follows the letter of a switch is not reached, because all
switches with a letter are answered at once. -/
def Argument.short : List Char → Argument
  | 'h' :: _ => .switch .help
  | 'V' :: _ => .switch .version
  | ['c'] => .option .file none
  | 'c' :: value => .option .file (some ((attached? value).getD (String.ofList value)))
  | _ => .unknown

def Argument.read (text : String) : Argument :=
  match text.toList with
  | ['-', '-'] => .separator
  | '-' :: '-' :: rest => .long rest
  | '-' :: rest => .short rest
  | _ => .unknown

/-- The argument can be the value of the option before it. -/
def isValue (text : String) : Bool :=
  match text.toList with
  | ['-'] => true
  | '-' :: _ => false
  | _ => true

/-! ## Lines of arguments -/

def Flags.set (flags : Flags) (value : String) : ValueOption → Flags
  | .file => { flags with file := some value }
  | .address => { flags with address := some value }
  | .logLevel => { flags with logLevel := some value }
  | .timeout => { flags with timeout := some value }
  | .workers => { flags with workers := some value }

def Flags.get? (flags : Flags) : ValueOption → Option String
  | .file => flags.file
  | .address => flags.address
  | .logLevel => flags.logLevel
  | .timeout => flags.timeout
  | .workers => flags.workers

/-- The flags with the value of an option that was not given before. -/
def Flags.take? (flags : Flags) (wanted : ValueOption) (value : String) : Option Flags :=
  if (flags.get? wanted).isSome then none else some (flags.set value wanted)

/-- What arguments ask for after the given flags; nothing if they are a misuse. -/
def requestAfter? (flags : Flags) : List String → Option Request
  | [] => some (.serve flags)
  | text :: rest =>
    match Argument.read text with
    | .switch .help => some .help
    | .switch .version => some .version
    | .switch .noDemo =>
      if flags.noDemo then none else requestAfter? { flags with noDemo := true } rest
    | .option wanted (some value) =>
      (flags.take? wanted value).bind fun flags => requestAfter? flags rest
    | .option wanted none =>
      match rest with
      | [] => none
      | value :: rest =>
        if isValue value then
          (flags.take? wanted value).bind fun flags => requestAfter? flags rest
        else none
    | .separator => if rest = [] then some (.serve flags) else none
    | .unknown => none

def request? (args : List String) : Option Request :=
  requestAfter? {} args

/-! ## Answers -/

def Flags.layer (flags : Flags) : Settings.Layer where
  workersName := "worker count"
  address := flags.address
  timeout := flags.timeout
  workers := flags.workers
  logLevel := flags.logLevel

/-- The settings file to look into. -/
def Flags.path (flags : Flags) : String :=
  flags.file.getD Settings.defaultFile

/-- The settings to serve with. A file that the flags name must be there, and then it stands in for
the default file and the environment. -/
def Flags.settings (flags : Flags) (vars : List (String × String))
    (content : Except FileFault ByteArray) : Except Error Settings := do
  let base ←
    if flags.file.isSome then Settings.ofFile content
    else Settings.load (if content matches .error .notFound then none else some content) vars
  let settings ← base.overlay flags.layer
  settings.validate
  return settings

/-- What becomes of a command line. -/
inductive Outcome
  | shown (text : String)
  | misused
  | refused (error : Error)
  | serving (settings : Settings) (demo : Bool)

def helpText : String := Program.purpose ++ "

Usage: exposed-model [OPTIONS]

Options:
  -c, --config <FILE>                 Configuration file path
      --http-addr <ADDR>              HTTP server bind address
      --log-level <LEVEL>             Log level (trace, debug, info, warn, error)
      --long-poll-timeout <DURATION>  Default long-poll wait, e.g. 30s or 500ms
      --workers <N>                   Number of runtime worker threads
      --no-demo                       Serve an empty model without the demo job
  -h, --help                          Print help
  -V, --version                       Print version
"

def versionText : String := Program.name ++ " " ++ Program.version ++ "\n"

/-- The text that ends the program with an error. Reasons are shown quoted. -/
def failureText : Error → String
  | .settings reason => "Error: Config(" ++ Text.quoted reason ++ ")\n"
  | error => "Error: " ++ error.message ++ "\n"

/-- What becomes of a command line, given the environment and what looking into a file yields. -/
def run (args : List String) (vars : List (String × String))
    (content : String → Except FileFault ByteArray) : Outcome :=
  match request? args with
  | none => .misused
  | some .help => .shown helpText
  | some .version => .shown versionText
  | some (.serve flags) =>
    match flags.settings vars (content flags.path) with
    | .ok settings => .serving settings (¬ flags.noDemo)
    | .error error => .refused error

def Outcome.exitCode : Outcome → Nat
  | .shown _ | .serving .. => 0
  | .refused _ => 1
  | .misused => 2

end SharedState.CommandLine
