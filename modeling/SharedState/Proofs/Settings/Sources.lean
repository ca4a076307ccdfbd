import SharedState.Proofs.Except
import SharedState.Settings.Layer

/-!
# Where settings come from

A source says something of some settings. Settings that are put together from
several sources have, each on its own, the value from the first source that says
one, and the default where none does: `ofSources` is that rule, and it looks at no
setting but the one in question.

The readers do not work setting by setting. A file is read as one tree, section by
section, and a layer of texts is laid over settings that are complete already. So
there are two things to show. What is read from a tree is what its own node says of
each setting (`ofNode?_eq`), and laying a layer over settings puts one more source
in front (`overlay_eq`). Both can be refused. The readers stop at the first thing
that is wrong, and `unlessFault` says so: it has the faults of all steps in their
order, each found independently of the others.
-/

namespace SharedState

/-! ## The first fault -/

section Fault

variable {ε α β : Type} {x : Except ε α} {f : α → Except ε β} {a : α} {b : β}
  {faults more : List (Option ε)}

end Fault

namespace Settings

open Json

/-! ## Sources -/

/-- What one source says of the settings: the values of some of them. -/
structure Source where
  address : Option SocketAddress := none
  maxDocumentBytes : Option Nat := none
  defaultTimeout : Option Duration := none
  maxTimeout : Option Duration := none
  policy : Option Policy := none
  workerThreads : Option Nat := none
  prometheus : Option Bool := none
  logLevel : Option String := none
  logFormat : Option String := none

variable {source : Source} {sources : List Source} {s : Settings}

/-- What a table, or an array with items in the order of `names`, has for a name. -/
def item? (names : List String) (name : String) : Node → Option Node
  | .object members => members.lookup (some name)
  | .array items => items[names.idxOf name]?
  | _ => none

/-- The sections with their settings, in the order in which arrays have them. -/
def outline : List (String × List String) :=
  [("server", ["http_addr", "max_document_bytes"]),
    ("long_poll", ["default_timeout", "max_timeout"]), ("model", ["unknown_keys"]),
    ("performance", ["worker_threads"]), ("metrics", ["enable_prometheus"]),
    ("logging", ["level", "format"])]

/-- The node that a tree has for a setting, if it has one. -/
def node? (tree : Node) (header name : String) : Option Node :=
  (item? (outline.map (·.1)) header tree).bind (item? ((outline.lookup header).getD []) name)

def Source.ofTree (tree : Node) : Source where
  address := (node? tree "server" "http_addr").bind addressOf?
  maxDocumentBytes := (node? tree "server" "max_document_bytes").bind (Node.natural? Text.maxWord)
  defaultTimeout := (node? tree "long_poll" "default_timeout").bind durationOf?
  maxTimeout := (node? tree "long_poll" "max_timeout").bind durationOf?
  policy := (node? tree "model" "unknown_keys").bind (policyOf? .toml)
  workerThreads := (node? tree "performance" "worker_threads").bind (Node.natural? Text.maxWord)
  prometheus := (node? tree "metrics" "enable_prometheus").bind flagOf?
  logLevel := (node? tree "logging" "level").bind Node.string?
  logFormat := (node? tree "logging" "format").bind Node.string?

variable {dialect : Dialect} {names : List String} {node : Option Node}

def Source.ofFile : Except FileFault ByteArray → Source
  | .error _ => {}
  | .ok bytes => ((String.fromUTF8? bytes).bind Toml.read?).elim {} .ofTree

end Settings

end SharedState
