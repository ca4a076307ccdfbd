import SharedState.Watch

/-!
# Waits while nothing happens

The two loops look at things in a different order: a thread asks for a newer
revision, then whether it has been cancelled, and only then about the deadline;
a task knows of no cancellation, and is polled before its deadline is looked
at. While nothing is published and nothing is cancelled both find the same
each time, however often they are woken or polled for nothing, and it is
decided at the first look how they end.
-/

namespace SharedState.Watch

variable {w : Watch} {now after : Nat} {timeout : Duration} {cancelled : Bool}

theorem block_of_quiet {atDeadline : Option Nat} {found : Glance} {wakings : List Glance}
    (hquiet : ∀ waking ∈ wakings, waking = found) :
    block after atDeadline found wakings = block after atDeadline found [] := by
  induction wakings with
  | nil => rfl
  | cons waking rest ih =>
      obtain ⟨rfl, hrest⟩ := List.forall_mem_cons.1 hquiet
      have hlook : block after atDeadline waking (waking :: rest) =
          if after < waking.shown then some (.advanced waking.shown)
          else if waking.cancelled then some .cancelled
          else block after atDeadline waking rest := by
        rw [block]
      rw [hlook, ih hrest, block]
      split
      · rfl
      · split <;> rfl

theorem attend_of_quiet {shown : Nat} {polls : List Nat} (hquiet : ∀ poll ∈ polls, poll = shown) :
    attend after shown polls = if after < shown then .advanced shown else .timedOut := by
  induction polls with
  | nil => rfl
  | cons poll rest ih =>
      obtain ⟨rfl, hrest⟩ := List.forall_mem_cons.1 hquiet
      rw [attend, ih hrest]
      split <;> rfl

theorem waitAsync_eq (w : Watch) (after : Nat) (timeout : Duration) :
    w.waitAsync after timeout =
      if after < w.channel then .advanced w.channel else .timedOut :=
  attend_of_quiet fun _ => List.mem_singleton.1

theorem wait_eq (w : Watch) (now after : Nat) (timeout : Duration) (cancelled : Bool) :
    w.wait now after timeout cancelled =
      if after < w.current then some (.advanced w.current)
      else if cancelled then some .cancelled
      else (deadline? now timeout).map fun _ => .timedOut := by
  rw [wait, block]
  split
  · rfl
  · next hold =>
    split
    · rfl
    · rw [Option.map_map]
      congr 1
      funext _
      exact if_neg hold

theorem wait_eq_advanced_iff {revision : Nat} :
    w.wait now after timeout cancelled = some (.advanced revision) ↔
      revision = w.current ∧ after < w.current := by
  rw [wait_eq]
  split
  · next hnew =>
    constructor
    · intro h
      cases h
      exact ⟨rfl, hnew⟩
    · rintro ⟨rfl, -⟩
      rfl
  · next hold =>
    refine ⟨?_, fun h => absurd h.2 hold⟩
    split
    · nofun
    · intro h
      obtain ⟨_, -, h⟩ := Option.map_eq_some_iff.1 h
      cases h

theorem wait_eq_cancelled_iff :
    w.wait now after timeout cancelled = some .cancelled ↔
      ¬ after < w.current ∧ cancelled = true := by
  rw [wait_eq]
  split
  · next hnew => exact ⟨nofun, fun h => absurd hnew h.1⟩
  · next hold =>
    split
    · next hcancel => exact ⟨fun _ => ⟨hold, hcancel⟩, fun _ => rfl⟩
    · next hlive =>
      refine ⟨fun h => ?_, fun h => absurd h.2 hlive⟩
      obtain ⟨_, -, h⟩ := Option.map_eq_some_iff.1 h
      cases h

theorem wait_eq_timedOut_iff :
    w.wait now after timeout cancelled = some .timedOut ↔
      ¬ after < w.current ∧ cancelled = false ∧ (deadline? now timeout).isSome := by
  rw [wait_eq]
  split
  · next hnew => exact ⟨nofun, fun h => absurd hnew h.1⟩
  · next hold =>
    cases cancelled with
    | true => exact ⟨nofun, nofun⟩
    | false =>
        rw [if_neg Bool.false_ne_true, Option.map_eq_some_iff, Option.isSome_iff_exists]
        constructor
        · rintro ⟨instant, h, -⟩
          exact ⟨hold, rfl, instant, h⟩
        · rintro ⟨-, -, instant, h⟩
          exact ⟨instant, h, rfl⟩

/-- A thread that nobody cancels and that has a deadline waits as a task does. -/
theorem wait_eq_waitAsync (hshown : w.current = w.channel)
    (hdeadline : (deadline? now timeout).isSome) :
    w.wait now after timeout false = some (w.waitAsync after timeout) := by
  obtain ⟨instant, hinstant⟩ := Option.isSome_iff_exists.1 hdeadline
  rw [wait_eq, waitAsync_eq, hinstant, hshown]
  split <;> rfl

end SharedState.Watch
