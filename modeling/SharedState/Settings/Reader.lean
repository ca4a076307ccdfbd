import SharedState.Json.Fields
import SharedState.Settings.Basic
import SharedState.Toml.Document

/-!
# Reading settings

Settings are read from a tree, which a settings file or a JSON text writes. Every section and every
setting may be missing, and then keeps its default; sections may be arrays of their settings in
order. The two formats differ in two decisions, which a `Dialect` holds.
-/

namespace SharedState

open Json

namespace Settings

/-- What a format of settings decides: whether an array may go on after the last setting of a
section, and what the policy may be followed by when it is written as the key of a table. -/
structure Dialect where
  extraItems : Bool
  isNothing : Node → Bool

def Dialect.toml : Dialect where
  extraItems := true
  isNothing
    | .object [] | .array [] => true
    | _ => false

def Dialect.json : Dialect where
  extraItems := false
  isNothing
    | .null => true
    | _ => false

/-- The settings of a section by their names, if the section is given. -/
def sectionFields? (dialect : Dialect) (names : List String) :
    Option Node → Option (List (Option Node))
  | none => some (names.map fun _ => none)
  | some (.array items) =>
    Node.fields? names (.array (if dialect.extraItems then items.take names.length else items))
  | some node => node.fields? names

/-- A setting that keeps its default if it is not given. -/
def given? {α : Type} (default : α) (read : Node → Option α) : Option Node → Option α
  | none => some default
  | some node => read node

def addressOf? (node : Node) : Option SocketAddress :=
  node.string?.bind fun text => SocketAddress.read? text.toList

/-- A duration: its text, or a number of seconds. -/
def durationOf? : Node → Option Duration
  | .string (some text) => (Duration.read text.toList).toOption
  | node => (node.natural? Text.maxWord).map .ofSeconds

/-- A policy: its name, or a table with its name as the only key. -/
def policyOf? (dialect : Dialect) : Node → Option Policy
  | .string (some name) => Policy.ofName? name
  | .object [(some name, content)] =>
    if dialect.isNothing content then Policy.ofName? name else none
  | _ => none

def flagOf? : Node → Option Bool
  | .bool b => some b
  | _ => none

def ofNode? (dialect : Dialect) (node : Node) : Option Settings := do
  let defaults : Settings := {}
  let [server, longPoll, model, performance, metrics, logging] ←
      sectionFields? dialect
        ["server", "long_poll", "model", "performance", "metrics", "logging"] (some node)
    | none
  let [address, maxBytes] ← sectionFields? dialect ["http_addr", "max_document_bytes"] server
    | none
  let [defaultTimeout, maxTimeout] ←
      sectionFields? dialect ["default_timeout", "max_timeout"] longPoll
    | none
  let [policy] ← sectionFields? dialect ["unknown_keys"] model
    | none
  let [workers] ← sectionFields? dialect ["worker_threads"] performance
    | none
  let [prometheus] ← sectionFields? dialect ["enable_prometheus"] metrics
    | none
  let [level, format] ← sectionFields? dialect ["level", "format"] logging
    | none
  return {
    address := (← given? defaults.address addressOf? address)
    maxDocumentBytes := (← given? defaults.maxDocumentBytes (Node.natural? Text.maxWord) maxBytes)
    defaultTimeout := (← given? defaults.defaultTimeout durationOf? defaultTimeout)
    maxTimeout := (← given? defaults.maxTimeout durationOf? maxTimeout)
    policy := (← given? defaults.policy (policyOf? dialect) policy)
    workerThreads := (← given? defaults.workerThreads (Node.natural? Text.maxWord) workers)
    prometheus := (← given? defaults.prometheus flagOf? prometheus)
    logLevel := (← given? defaults.logLevel Node.string? level)
    logFormat := (← given? defaults.logFormat Node.string? format) }

/-- The refusal of a settings file that cannot be read. -/
def unreadable : Error := .settings "Failed to parse config file"

def ofToml (text : String) : Except Error Settings :=
  match (Toml.read? text).bind (ofNode? .toml) with
  | some settings => .ok settings
  | none => .error unreadable

def ofJson? (bytes : ByteArray) : Option Settings :=
  (Node.parse? bytes).bind (ofNode? .json)

end Settings

end SharedState
