import SharedState.World.Basic

/-!
# Performing calls

A call takes the guard of its model, performs the operation, and tells the listeners of every commit
while the guard is still held. A listener may itself make calls. While a model tells its listeners
of an event it is marked as dispatching, and a call that finds its model marked is refused instead
of waiting for a guard that its own thread holds.

The calls of listeners are performed by the function `call` that each definition here is given, and
`World.perform` ties the knot. Every level of calls inside calls marks one more model, so with `n`
models no call is nested deeper than `n + 1`, and that is the number of levels `World.call` allows.
-/

namespace SharedState

namespace World

variable {n : Nat}

/-! ## Telling the listeners -/

/-- Performs calls in order and collects the replies. -/
def callAll (call : World n → Call n → World n × Reply) (w : World n) :
    List (Call n) → World n × List Reply
  | [] => (w, [])
  | c :: rest =>
    let (w, reply) := call w c
    let (w, replies) := callAll call w rest
    (w, reply :: replies)

/-- Tells one listener of an event. -/
def tell (call : World n → Call n → World n × Reply) (m : Fin n) (event : Event)
    (w : World n) (listener : Listener n) : World n :=
  let seen := w.currentRevision m
  let (w, replies) := callAll call w (listener.calls event)
  w.post listener.inbox ⟨event, seen, replies⟩

/-- Tells all listeners of an event that want to hear of it. The model is marked meanwhile. -/
def dispatch (call : World n → Call n → World n × Reply) (m : Fin n)
    (w : World n) (event : Event) : World n :=
  let registry := w[m].registry
  if registry.listeners.isEmpty then w
  else
    let w := { w with dispatching := m :: w.dispatching }
    let w := (registry.audience event.kind).foldl (tell call m event) w
    { w with dispatching := w.dispatching.erase m }

/-- Publishes a committed change, and tells the listeners of its events. -/
def commit (call : World n → Call n → World n × Reply) (w : World n) (m : Fin n)
    (store : Store) (change : Commit) : World n :=
  let w := w.modify m fun model =>
    { model with store, watch := model.watch.publish change.revision }
  let w := w.count (·.commit change.mutation change.revision store.elements.size)
  change.events.foldl (dispatch call m) w

/-! ## Operations -/

/-- Commits a change of the store, or refuses. -/
def change (call : World n → Call n → World n × Reply) (w : World n) (m : Fin n) :
    Except Error (Store × Commit) → World n × Except Error Nat
  | .ok (store, c) => (w.commit call m store c, .ok c.revision)
  | .error e => (w, .error e)

/-- Commits updates one after the other, and says which keys were updated and the last revision. -/
def applyUpdates (call : World n → Call n → World n × Reply) (m : Fin n) (report : Report) :
    World n → List (String × Value) → World n × Except Error Report
  | w, [] => (w, .ok report)
  | w, (key, value) :: rest =>
    match change call w m (w[m].store.update key value) with
    | (w, .error e) => (w, .error e)
    | (w, .ok revision) =>
      applyUpdates call m { report with applied := report.applied ++ [key], revision } w rest

/-- Plans to apply a document and then commits its updates. -/
def planAndApply (call : World n → Call n → World n × Reply) (w : World n) (m : Fin n)
    (doc : Document) : World n × Except Error Report :=
  let store := w[m].store
  let w := w.setStore m (store.afterPlanning doc)
  match store.plan doc with
  | .error e => (w, .error e)
  | .ok plan =>
    applyUpdates call m { ignored := plan.ignored, revision := store.revision } w plan.updates

/-- Applies a document and counts whether it was accepted. -/
def applyDocument (call : World n → Call n → World n × Reply) (w : World n) (m : Fin n)
    (doc : Document) : World n × Reply :=
  match planAndApply call w m doc with
  | (w, .ok report) => (w.count (·.countApply true), .ok (.report report))
  | (w, .error e) => (w.count (·.countApply false), .error e)

def replyRevision (result : World n × Except Error Nat) : World n × Reply :=
  (result.1, result.2.map .revision)

/-- Performs an operation on a model whose guard is held. A submission that is still to be read is
one that cannot be read. -/
def operate (call : World n → Call n → World n × Reply) (w : World n) (m : Fin n) :
    Operation (Listener n) → World n × Reply
  | .look => (w, .ok (.store w[m].store))
  | .add spec => replyRevision (change call w m (w[m].store.add spec))
  | .update key value => replyRevision (change call w m (w[m].store.update key value))
  | .remove key => replyRevision (change call w m (w[m].store.remove key))
  | .annotate key text => replyRevision (change call w m (w[m].store.annotate key text))
  | .apply doc => applyDocument call w m doc
  | .submit _ => (w.count (·.countUnreadable), .error .malformedDocument)
  | .setLayout layout => (w.setStore m (w[m].store.setLayout layout), .ok .done)
  | .schema =>
    let store := w[m].store
    (w.setStore m store.keepSchema, .ok (.schema store.schema))
  | .full =>
    let store := w[m].store
    ((w.setStore m store.keepSchema).count (·.countFull), .ok (.document store.fullDocument))
  | .delta since =>
    let store := w[m].store
    ((w.setStore m store.keepSchema).count (·.countDelta),
      .ok (.document (store.deltaDocument since)))
  | .register listener =>
    let (registry, handle) := w[m].registry.register listener
    (w.modify m fun model => { model with registry }, .ok (.handle handle))
  | .unregister handle =>
    let (registry, found) := w[m].registry.unregister handle
    (w.modify m fun model => { model with registry }, .ok (.unregistered found))

/-- The operation with its document read, if there is one to read. Bytes that are no document stay
a submission. -/
def readDocument : Operation (Listener n) → Operation (Listener n)
  | .submit bytes =>
    match Document.parse? bytes with
    | some doc => .apply doc
    | none => .submit bytes
  | op => op

def isSubmission : Operation (Listener n) → Bool
  | .submit _ => true
  | _ => false

/-- Performs one call; the calls of listeners are performed by `call`. Documents are read before the
guard is taken, so unreadable bytes are refused as such even where the guard would be. -/
def answer (call : World n → Call n → World n × Reply) (w : World n) (c : Call n) :
    World n × Reply :=
  let op := readDocument c.2
  if c.1 ∈ w.dispatching ∧ ¬ isSubmission op then (w, .error .reentrantAccess)
  else operate call w c.1 op

/-- Performs a call with at most `depth` levels of calls inside calls. -/
def perform : Nat → World n → Call n → World n × Reply
  | 0, w, _ => (w, .error .reentrantAccess)
  | depth + 1, w, c => answer (perform depth) w c

def call (w : World n) (c : Call n) : World n × Reply :=
  perform (n + 1) w c

def run (w : World n) (calls : List (Call n)) : World n :=
  calls.foldl (fun w c => (w.call c).1) w

/-- A wait without a deadline that goes on while `step` is performed, and is cancelled after it. -/
def waitDuring {α : Type} (w : World n) (m : Fin n) (after : Nat) (step : World n → World n × α) :
    World n × α × WaitOutcome :=
  let (w, result) := step w
  let outcome := ((w[m].watch.wait 0 after .longest true)).getD .cancelled
  (w.count (·.countWait outcome), result, outcome)

end World

end SharedState
