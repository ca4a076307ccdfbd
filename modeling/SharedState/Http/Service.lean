import SharedState.Http.Form
import SharedState.Http.Message
import SharedState.Program
import SharedState.Settings.Basic
import SharedState.World.Perform

/-!
# The service

What a model answers to remote observers. They fetch the full document, wait for what changed after
a revision that they know, and submit documents of updates; the other resources tell of the service
itself. Paths are compared as they are written.

A client that waits is answered as soon as an exposed element was touched after its revision.
Commits that touch none wake the wait in vain: it then goes on, but from the revision that was
looked at.
-/

namespace SharedState.Http

open Json

/-! ## Resources -/

/-- The resources that are served. -/
inductive Route
  | fullModel
  | changes
  | updates
  | health
  | info
  | metrics
deriving DecidableEq

def Route.path : Route → String
  | .fullModel => "/getExposedModel"
  | .changes => "/getExposedModelUpdate"
  | .updates => "/updateState"
  | .health => "/api/v1/health"
  | .info => "/api/v1/info"
  | .metrics => "/metrics"

def Route.ofPath? (path : String) : Option Route :=
  [fullModel, changes, updates, health, info, metrics].find? fun route => route.path = path

def Route.method : Route → String
  | .updates => "POST"
  | _ => "GET"

/-- What a waiting client says: the revision that it knows, and how long it would wait. -/
structure ChangesQuery where
  revision : Nat := 0
  timeout : Option Duration := none
deriving DecidableEq

def ChangesQuery.read? (query : List Char) : Option ChangesQuery := do
  let fields := Form.fields query
  let revision ← Form.natural? fields "revision"
  let timeout ← Form.natural? fields "timeout_ms"
  return { revision := revision.getD 0, timeout := timeout.map .ofMilliseconds }

/-! ## Contents -/

def reportText (report : Report) : String :=
  String.ofList <| Node.write <| .record
    [("applied", .array (report.applied.map .text)),
      ("ignored", .array (report.ignored.map .text)),
      ("revision", Shape.naturalNode report.revision)]

def infoText (store : Store) : String :=
  String.ofList <| Node.write <| .record
    [("name", .text Program.name), ("version", .text Program.version),
      ("endpoints", .array ([Route.fullModel, .changes, .updates].map fun route =>
        .text (route.method ++ " " ++ route.path))),
      ("elements", Shape.naturalNode store.elements.size),
      ("unknown_keys", .text store.policy.name)]

/-- The text that tells that a model at a revision is served. -/
def healthText (revision : Nat) : String :=
  String.ofList <| Node.write <| .record
    [("revision", Shape.naturalNode revision), ("status", .text "healthy"),
      ("version", .text Program.version)]

def Response.ofReply : Reply → Response
  | .ok (.document doc) => .json 200 doc.render
  | .ok (.report report) => .json 200 (reportText report)
  | .ok (.store store) => .json 200 (infoText store)
  | .ok _ => .bare 200
  | .error error => .refusal error

/-! ## Answering -/

variable {n : Nat}

/-- Waits for exposed changes after the revision that the client knows, in at most the given number
of turns; `after` is the latest revision known to hold none. There is no answer while the wait goes
on. -/
def awaitChanges (m : Fin n) (known : Nat) (timeout : Duration) :
    Nat → World n → Nat → World n × Option Response
  | 0, w, _ => (w, none)
  | turns + 1, w, after =>
    match w.waitAsync m after timeout with
    | (w, .advanced _) =>
      match w.call (m, .delta known) with
      | (w, .ok (.document doc)) =>
        if doc.isNoop then awaitChanges m known timeout turns w doc.revision
        else (w, some (.json 200 doc.render))
      | (w, reply) => (w, some (.ofReply reply))
    | (w, _) => (w, some (.bare 204))

/-- Answers a client that waits. Every turn in vain raises the revision that is waited beyond, and
no further than the watch shows, which bounds the turns. -/
def answerChanges (settings : Settings) (w : World n) (m : Fin n) (query : ChangesQuery) :
    World n × Option Response :=
  let turns := w[m].watch.channel - query.revision + 1
  awaitChanges m query.revision (settings.longPollTimeout query.timeout) turns w query.revision

def answerCall (w : World n) (call : Call n) : World n × Option Response :=
  let (w, reply) := w.call call
  (w, some (.ofReply reply))

def answerAt (settings : Settings) (w : World n) (m : Fin n) (request : Request) :
    Route → World n × Option Response
  | .fullModel => answerCall w (m, .full)
  | .changes =>
    match ChangesQuery.read? request.query with
    | some query => answerChanges settings w m query
    | none => (w, some (.bare 400))
  | .updates =>
    if settings.maxDocumentBytes < request.body.size then (w, some (.bare 413))
    else answerCall w (m, .submit request.body)
  | .health => (w, some (.json 200 (healthText (w.currentRevision m))))
  | .info => answerCall w (m, .look)
  | .metrics =>
    (w, some (if settings.prometheus then
      { status := 200, contentType := some "text/plain; version=0.0.4" }
    else .bare 404))

/-- Answers a request to the model. All resources may be asked for from everywhere, and resources to
get may be asked for without content. -/
def answer (settings : Settings) (w : World n) (m : Fin n) (request : Request) :
    World n × Option Response :=
  if request.method = "OPTIONS" then (w, some (.bare 200))
  else
    match Route.ofPath? request.path with
    | none => (w, some (.bare 404))
    | some route =>
      if request.method = route.method then answerAt settings w m request route
      else if request.method = "HEAD" ∧ route.method = "GET" then
        let (w, response) := answerAt settings w m request route
        (w, response.map .headOnly)
      else (w, some (.bare 405))

end SharedState.Http
