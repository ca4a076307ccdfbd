import SharedState.Store.Plan

/-!
# Models and their listeners

A model is a store with its listeners and the watch that shows its revision. A world is a fixed
number of models together with all that their operations can show: which of them are dispatching
events, the inboxes of the listeners, the cancellation tokens, and the metrics of the process.

A listener is data: what it wants to hear of, the calls that it makes in answer to an event, and the
inbox in which it notes the event with the answers it got. Its calls may go to any model of the
world.
-/

namespace SharedState

/-- What can be asked of a model through its guard. Reading anything from a model is looking at its
store; the operations that may change more than that are on their own. -/
inductive Operation (Listener : Type)
  | look
  | add (spec : Spec)
  | update (key : String) (value : Value)
  | remove (key : String)
  | annotate (key label : String)
  | apply (doc : Document)
  | submit (bytes : ByteArray)
  | setLayout (layout : Json)
  | schema
  | full
  | delta (since : Nat)
  | register (listener : Listener)
  | unregister (handle : Nat)

/-- An observer of a model in a world of `n` models. -/
inductive Listener (n : Nat)
  | mk (interest : Interest) (calls : Event → List (Fin n × Operation (Listener n)))
    (inbox : Option Nat)

abbrev Call (n : Nat) := Fin n × Operation (Listener n)

namespace Listener

variable {n : Nat}

def interest : Listener n → Interest
  | mk interest _ _ => interest

/-- The calls that the listener makes in answer to an event. -/
def calls : Listener n → Event → List (Call n)
  | mk _ calls _ => calls

def inbox : Listener n → Option Nat
  | mk _ _ inbox => inbox

/-- A listener that only passes events on to an inbox. -/
def forwarder (interest : Interest) (inbox : Nat) : Listener n :=
  mk interest (fun _ => []) (some inbox)

end Listener

/-- What an operation answers. -/
inductive Outcome
  | done
  | revision (revision : Nat)
  | store (store : Store)
  | report (report : Report)
  | document (doc : Document)
  | schema (schema : Schema)
  | handle (handle : Nat)
  | unregistered (found : Bool)
deriving DecidableEq

abbrev Reply := Except Error Outcome

/-- An event as a listener saw it: with the revision that the watch of its model showed, and with
the answers to the calls that it made. -/
structure Notice where
  event : Event
  seen : Nat
  replies : List Reply

/-- Notices for a receiver, which may have gone. -/
structure Inbox where
  isOpen : Bool := true
  notices : List Notice := []

/-- The registered listeners of a model by their handles, in the order of registration. -/
structure Registry (n : Nat) where
  lastHandle : Nat := 0
  listeners : List (Nat × Listener n) := []

namespace Registry

variable {n : Nat}

/-- Registers a listener under a handle that was never used before. -/
def register (r : Registry n) (listener : Listener n) : Registry n × Nat :=
  let handle := r.lastHandle + 1
  (⟨handle, r.listeners ++ [(handle, listener)]⟩, handle)

/-- Unregisters a handle, and says whether it was registered. -/
def unregister (r : Registry n) (handle : Nat) : Registry n × Bool :=
  ({ r with listeners := r.listeners.filter (·.1 ≠ handle) }, r.listeners.any (·.1 = handle))

/-- The listeners that want to hear of changes of a kind. -/
def audience (r : Registry n) (kind : EventKind) : List (Listener n) :=
  (r.listeners.map (·.2)).filter (·.interest.wants kind)

end Registry

/-- A store with its listeners and the watch that shows its revision. -/
structure Model (n : Nat) where
  store : Store
  registry : Registry n := {}
  watch : Watch := .start 0

def Model.empty {n : Nat} (policy : Policy) : Model n := { store := { policy } }

/-- The models of a process, seen from one thread. The models that are dispatching events on it are
listed with the innermost dispatch first. -/
structure World (n : Nat) where
  models : Vector (Model n) n
  dispatching : List (Fin n) := []
  inboxes : List Inbox := []
  tokens : List Bool := []
  metrics : Metrics := {}

namespace World

variable {n : Nat}

instance : GetElem (World n) (Fin n) (Model n) fun _ _ => True where
  getElem w m _ := w.models[m]

/-- Empty models with the given policies, and nothing else. -/
def start (policies : Vector Policy n) : World n :=
  { models := policies.map .empty }

def modify (w : World n) (m : Fin n) (change : Model n → Model n) : World n :=
  { w with models := w.models.set m (change w[m]) }

/-- The world with the store of one model replaced. -/
def setStore (w : World n) (m : Fin n) (store : Store) : World n :=
  w.modify m fun model => { model with store }

/-- The revision that can be read without the guard. -/
def currentRevision (w : World n) (m : Fin n) : Nat := w[m].watch.current

def count (w : World n) (change : Metrics → Metrics) : World n :=
  { w with metrics := change w.metrics }

/-! ## Inboxes and tokens -/

def openInbox (w : World n) : World n × Nat :=
  ({ w with inboxes := w.inboxes ++ [{}] }, w.inboxes.length)

/-- Puts a notice into an inbox; it is lost if the receiver has gone. -/
def post (w : World n) (inbox : Option Nat) (notice : Notice) : World n :=
  match inbox with
  | none => w
  | some i =>
    { w with inboxes := w.inboxes.modify i fun b =>
        if b.isOpen then { b with notices := b.notices ++ [notice] } else b }

/-- Takes all notices out of an inbox. -/
def drain (w : World n) (inbox : Nat) : World n × List Notice :=
  ({ w with inboxes := w.inboxes.modify inbox fun b => { b with notices := [] } },
    (w.inboxes[inbox]?.map (·.notices)).getD [])

def closeInbox (w : World n) (inbox : Nat) : World n :=
  { w with inboxes := w.inboxes.modify inbox fun b => { b with isOpen := false, notices := [] } }

/-- A new token for cancelling waits. Copies of a token are the same token. -/
def newToken (w : World n) : World n × Nat :=
  ({ w with tokens := w.tokens ++ [false] }, w.tokens.length)

def cancel (w : World n) (token : Nat) : World n :=
  { w with tokens := w.tokens.modify token fun _ => true }

def isCancelled (w : World n) (token : Nat) : Bool := w.tokens[token]?.getD false

/-- A blocking wait on a model, counted if it ends. -/
def wait (w : World n) (m : Fin n) (now after : Nat) (timeout : Duration) (token : Nat) :
    World n × Option WaitOutcome :=
  match w[m].watch.wait now after timeout (w.isCancelled token) with
  | some outcome => (w.count (·.countWait outcome), some outcome)
  | none => (w, none)

/-- A task's wait on a model, counted. -/
def waitAsync (w : World n) (m : Fin n) (after : Nat) (timeout : Duration) :
    World n × WaitOutcome :=
  let outcome := w[m].watch.waitAsync after timeout
  (w.count (·.countWait outcome), outcome)

end World

end SharedState
