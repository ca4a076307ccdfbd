import SharedState.Watch

/-!
# Metrics

Counters of what the models of a process have done, and two gauges that the latest commit sets.
-/

namespace SharedState

/-- The sorts of committed changes. -/
inductive Mutation
  | add
  | update
  | remove
  | annotate
deriving DecidableEq

/-- The counters and gauges of a process. -/
structure Metrics where
  added : Nat := 0
  updated : Nat := 0
  removed : Nat := 0
  annotated : Nat := 0
  full : Nat := 0
  delta : Nat := 0
  applied : Nat := 0
  rejected : Nat := 0
  applySamples : Nat := 0
  advanced : Nat := 0
  timedOut : Nat := 0
  cancelled : Nat := 0
  revision : Nat := 0
  elements : Nat := 0
deriving DecidableEq

namespace Metrics

/-- One more committed change, which left the given revision and number of elements. -/
def commit (m : Metrics) (mutation : Mutation) (revision elements : Nat) : Metrics :=
  let m := { m with revision, elements }
  match mutation with
  | .add => { m with added := m.added + 1 }
  | .update => { m with updated := m.updated + 1 }
  | .remove => { m with removed := m.removed + 1 }
  | .annotate => { m with annotated := m.annotated + 1 }

def countFull (m : Metrics) : Metrics := { m with full := m.full + 1 }

def countDelta (m : Metrics) : Metrics := { m with delta := m.delta + 1 }

/-- One more document that was applied or refused by a store. -/
def countApply (m : Metrics) (accepted : Bool) : Metrics :=
  if accepted then { m with applied := m.applied + 1, applySamples := m.applySamples + 1 }
  else { m with rejected := m.rejected + 1, applySamples := m.applySamples + 1 }

def countUnreadable (m : Metrics) : Metrics := { m with rejected := m.rejected + 1 }

def countWait (m : Metrics) : WaitOutcome → Metrics
  | .advanced _ => { m with advanced := m.advanced + 1 }
  | .timedOut => { m with timedOut := m.timedOut + 1 }
  | .cancelled => { m with cancelled := m.cancelled + 1 }

end Metrics

end SharedState
