import SharedState.Duration

/-!
# Waiting for a revision

A watch shows the revision of a model outside its guard, so that waiting for a newer revision and
looking at the current one need no guard. The revision is shown twice, once to threads that block
and once to tasks that do not; publishing sets both.

A waiting thread sleeps and looks around whenever it is woken, and a task looks whenever it is
polled. `block` and `attend` are these loops, over what is found each time. A wait from an instant
at which nothing else happens sleeps once, until its deadline; a blocking wait without a deadline
that nothing ends has no outcome.
-/

namespace SharedState

/-- A revision as it is shown to blocking waits and to tasks. -/
structure Watch where
  current : Nat
  channel : Nat
deriving DecidableEq

/-- How a wait ended. -/
inductive WaitOutcome
  | advanced (revision : Nat)
  | timedOut
  | cancelled
deriving DecidableEq

namespace Watch

def start (revision : Nat) : Watch := ⟨revision, revision⟩

/-- The watch after a revision has been committed. -/
def publish (_ : Watch) (revision : Nat) : Watch := ⟨revision, revision⟩

/-- The first instant, in nanoseconds, that no clock can show. -/
def clockEnd : Nat := (1 <<< 63) * 1000000000

/-- The instant at which a wait that starts now times out, if a clock can show it. -/
def deadline? (now : Nat) (timeout : Duration) : Option Nat :=
  if now + timeout.nanoseconds < clockEnd then some (now + timeout.nanoseconds) else none

/-- What a waiting thread finds when it looks around. -/
structure Glance where
  shown : Nat
  cancelled : Bool

/-- A thread waits for a revision beyond `after`. It looks around at once, and then each time that
it is woken before its deadline. The deadline, if there is one, wakes it for good, and only the
revision that is then shown counts. -/
def block (after : Nat) (atDeadline : Option Nat) (found : Glance) (wakings : List Glance) :
    Option WaitOutcome :=
  if after < found.shown then some (.advanced found.shown)
  else if found.cancelled then some .cancelled
  else
    match wakings with
    | [] => atDeadline.map fun shown => if after < shown then .advanced shown else .timedOut
    | waking :: rest => block after atDeadline waking rest

/-- A task waits for a revision beyond `after`. It looks each time that it is polled before its
deadline, and at its deadline a last time. -/
def attend (after : Nat) (atDeadline : Nat) : List Nat → WaitOutcome
  | [] => if after < atDeadline then .advanced atDeadline else .timedOut
  | shown :: rest => if after < shown then .advanced shown else attend after atDeadline rest

/-- The outcome of a blocking wait for a revision beyond `after`, if it ends. -/
def wait (w : Watch) (now after : Nat) (timeout : Duration) (cancelled : Bool) :
    Option WaitOutcome :=
  block after ((deadline? now timeout).map fun _ => w.current) ⟨w.current, cancelled⟩ []

/-- The outcome of a task's wait for a revision beyond `after`. It always ends: a deadline that no
clock can show is brought forward to one that a clock can. -/
def waitAsync (w : Watch) (after : Nat) (_timeout : Duration) : WaitOutcome :=
  attend after w.channel [w.channel]

end Watch

end SharedState
