import SharedState.Http.Service
import SharedState.Proofs.Waiting
import SharedState.Proofs.World.Convergence

/-!
# How long a poll goes on

A client that waits is served by a loop that goes on until a delta has something
in it or a wait ends for want of news. The loop says nothing about how often
that is; `Polls` is the loop as it stands, and `Http.awaitChanges` the same with
a number of turns that it may take.

Without commits in between, two turns are enough. The first wait is over at once
if the model has moved on at all, and the delta is made from the revision that
the client knows. If there is nothing in it, the second wait starts from the
revision of that delta, which is all there is, so it ends at the deadline.
-/

namespace SharedState

variable {n : Nat}

/-- An exposed element was touched after a revision. -/
def Store.TouchedAfter (s : Store) (revision : Nat) : Prop :=
  ∃ key e, s.exposed? key = some e ∧ revision < e.lastModified

/-- The number of waits that have ended. -/
def Metrics.waited (metrics : Metrics) : Nat :=
  metrics.advanced + metrics.timedOut + metrics.cancelled

namespace World

variable {m : Fin n} {w w' : World n}

/-! ## Deltas and stamps -/

/-- A delta carries nothing unless an exposed element was touched. -/
theorem isNoop_deltaDocument {s : Store} (hs : s.Sound) (since : Nat) :
    (s.deltaDocument since).isNoop = true ↔ ¬ s.TouchedAfter since := by
  rw [Document.isNoop, List.isEmpty_iff, List.eq_nil_iff_forall_not_mem]
  constructor
  · intro h htouched
    obtain ⟨key, e, hx, hnew⟩ := htouched
    exact h ⟨key, e.value.toWire⟩ ((Observer.mem_deltaDocument_state hs).2 ⟨e, hx, hnew, rfl⟩)
  · intro h entry hentry
    obtain ⟨e, hx, hnew, -⟩ := (Observer.mem_deltaDocument_state hs).1 hentry
    exact h ⟨entry.key, e, hx, hnew⟩

/-- No stamp is beyond the revision of the store. -/
theorem not_touchedAfter_of_le {s : Store} (hs : s.Sound) {revision : Nat}
    (h : s.revision ≤ revision) : ¬ s.TouchedAfter revision := by
  rintro ⟨key, e, hx, hnew⟩
  have hstamp := (hs.stamped (Store.exposed?_eq_some_iff.1 hx).1).2
  omega

/-- A delta is asked for without touching the model, and without a wait. -/
theorem call_delta (m : Fin n) (w : World n) (since : Nat) :
    Untouched m w (w.call (m, .delta since)).1 ∧
      (w.call (m, .delta since)).1.metrics.waited = w.metrics.waited := by
  by_cases hm : m ∈ w.dispatching
  · have hcall : w.call (m, .delta since) = (w, .error .reentrantAccess) :=
      if_pos ⟨hm, by simp [readDocument, isSubmission]⟩
    rw [hcall]
    exact ⟨.refl m w, rfl⟩
  · rw [call, perform_delta_of_free n since hm]
    exact ⟨(untouched_keepSchema m w).count _, rfl⟩

theorem waitAsync_counted (m : Fin n) (w : World n) (after : Nat) (timeout : Duration) :
    Untouched m w (w.waitAsync m after timeout).1 ∧
      (w.waitAsync m after timeout).1.metrics.waited = w.metrics.waited + 1 := by
  constructor
  · exact (Untouched.refl m w).count (·.countWait (w[m].watch.waitAsync after timeout))
  · show (w.metrics.countWait (w[m].watch.waitAsync after timeout)).waited = _
    cases w[m].watch.waitAsync after timeout <;>
      simp only [Metrics.countWait, Metrics.waited] <;> omega

/-- Nothing happens during the wait, so its end is decided by the revision. -/
theorem waitAsync_eq (hwatch : w[m].watch = .start w[m].store.revision) (after : Nat)
    (timeout : Duration) :
    (w.waitAsync m after timeout).2 =
      if after < w[m].store.revision then .advanced w[m].store.revision else .timedOut := by
  show w[m].watch.waitAsync after timeout = _
  rw [hwatch, Watch.waitAsync_eq]
  rfl

end World

/-! ## The loop -/

namespace Http

/-- One turn of the loop of a poll that asks for changes after the revision `known`: how its wait
ends, the world after it, and what comes of it, an answer or the revision to go on from. -/
def pollTurn (m : Fin n) (known : Nat) (timeout : Duration) (w : World n) (after : Nat) :
    WaitOutcome × World n × (Response ⊕ Nat) :=
  match w.waitAsync m after timeout with
  | (w, .advanced revision) =>
    match w.call (m, .delta known) with
    | (w, .ok (.document doc)) =>
      (.advanced revision, w,
        if doc.isNoop then .inr doc.revision else .inl (.json 200 doc.render))
    | (w, reply) => (.advanced revision, w, .inl (.ofReply reply))
  | (w, outcome) => (outcome, w, .inl (.bare 204))

/-- The loop: the waits of its turns, each with the revision that it is to go beyond and its end,
and the answer with the world that is left. What is left of the timeout may be anything in each
turn. -/
inductive Polls (m : Fin n) (known : Nat) :
    World n → Nat → List (Nat × WaitOutcome) → World n × Response → Prop
  | last {w w' : World n} {after : Nat} {outcome : WaitOutcome} {response : Response}
      {left : Duration} :
      pollTurn m known left w after = (outcome, w', .inl response) →
      Polls m known w after [(after, outcome)] (w', response)
  | next {w w' : World n} {after after' : Nat} {outcome : WaitOutcome}
      {waits : List (Nat × WaitOutcome)} {result : World n × Response} {left : Duration} :
      pollTurn m known left w after = (outcome, w', .inr after') →
      Polls m known w' after' waits result →
      Polls m known w after ((after, outcome) :: waits) result

variable {m : Fin n} {known after : Nat} {timeout : Duration} {w : World n}

theorem awaitChanges_succ (m : Fin n) (known : Nat) (timeout : Duration) (turns : Nat)
    (w : World n) (after : Nat) :
    awaitChanges m known timeout (turns + 1) w after =
      match pollTurn m known timeout w after with
      | (_, w', .inl response) => (w', some response)
      | (_, w', .inr after') => awaitChanges m known timeout turns w' after' := by
  rw [awaitChanges]
  split
  · next w₁ revision hwait =>
    split
    · next w₂ doc hcall =>
      simp only [pollTurn, hwait, hcall]
      split <;> rfl
    · next w₂ reply hnone hcall =>
      simp only [pollTurn, hwait, hcall]
  · next w₁ outcome hnone hwait =>
    simp only [pollTurn, hwait]

/-- While nothing happens, the time that is left makes no difference to how a wait ends. -/
theorem pollTurn_congr (left timeout : Duration) :
    pollTurn m known left w after = pollTurn m known timeout w after := by
  have hwait : w.waitAsync m after left = w.waitAsync m after timeout := by
    simp only [World.waitAsync, Watch.waitAsync_eq]
  rw [pollTurn, pollTurn, hwait]

theorem pollTurn_counted (m : Fin n) (known : Nat) (timeout : Duration) (w : World n)
    (after : Nat) :
    World.Untouched m w (pollTurn m known timeout w after).2.1 ∧
      (pollTurn m known timeout w after).2.1.metrics.waited = w.metrics.waited + 1 := by
  obtain ⟨huntouched, hwaited⟩ := World.waitAsync_counted m w after timeout
  rw [pollTurn]
  split
  · next w₁ revision hwait =>
    rw [hwait] at huntouched hwaited
    obtain ⟨hkept, hsame⟩ := World.call_delta m w₁ known
    split <;> next hcall =>
      rw [hcall] at hkept hsame
      exact ⟨huntouched.trans hkept, hsame.trans hwaited⟩
  · next w₁ outcome _ hwait =>
    rw [hwait] at huntouched hwaited
    exact ⟨huntouched, hwaited⟩

namespace Polls

variable {waits waits' : List (Nat × WaitOutcome)} {result result' : World n × Response}

/-- With turns for all of its waits, the bounded loop ends as the loop does. -/
theorem awaitChanges (h : Polls m known w after waits result) (timeout : Duration) {turns : Nat}
    (hturns : waits.length ≤ turns) :
    awaitChanges m known timeout turns w after = (result.1, some result.2) := by
  induction h generalizing turns with
  | last hturn =>
      obtain ⟨more, rfl⟩ := Nat.exists_eq_add_of_le' hturns
      rw [List.length_singleton, awaitChanges_succ, ← pollTurn_congr, hturn]
  | next hturn _ ih =>
      rw [List.length_cons] at hturns
      obtain ⟨more, rfl⟩ := Nat.exists_eq_add_of_le' (Nat.le_of_add_left_le hturns)
      rw [awaitChanges_succ, ← pollTurn_congr, hturn]
      exact ih (Nat.le_of_add_le_add_right hturns)

/-- What the loop does is determined by where it starts. -/
theorem functional (h : Polls m known w after waits result)
    (h' : Polls m known w after waits' result') : waits' = waits ∧ result' = result := by
  induction h generalizing waits' result' with
  | last hturn =>
      cases h' with
      | last hturn' =>
          rw [pollTurn_congr, hturn] at hturn'
          cases hturn'
          exact ⟨rfl, rfl⟩
      | next hturn' _ =>
          rw [pollTurn_congr, hturn] at hturn'
          cases hturn'
  | next hturn _ ih =>
      cases h' with
      | last hturn' =>
          rw [pollTurn_congr, hturn] at hturn'
          cases hturn'
      | next hturn' hrest =>
          rw [pollTurn_congr, hturn] at hturn'
          cases hturn'
          obtain ⟨rfl, rfl⟩ := ih hrest
          exact ⟨rfl, rfl⟩

/-- The loop leaves the model alone, and each of its waits is counted. -/
theorem counted (h : Polls m known w after waits result) :
    World.Untouched m w result.1 ∧
      result.1.metrics.waited = w.metrics.waited + waits.length := by
  induction h with
  | @last w w' after outcome response left hturn =>
      have hcounted := pollTurn_counted m known left w after
      rwa [hturn] at hcounted
  | @next w w' after after' outcome waits result left hturn _ ih =>
      obtain ⟨huntouched, hwaited⟩ := pollTurn_counted m known left w after
      rw [hturn] at huntouched hwaited
      obtain ⟨hrest, hcount⟩ := ih
      refine ⟨huntouched.trans hrest, ?_⟩
      rw [hcount, hwaited, List.length_cons]
      omega

end Polls

end Http

/-! ## The loop while nothing is committed -/

namespace World

open Http

variable {m : Fin n} {w w' : World n}

/-- A wait beyond the revision of the model is a wait in vain. -/
theorem pollTurn_of_le (hwatch : w[m].watch = .start w[m].store.revision) {after : Nat}
    (hafter : w[m].store.revision ≤ after) (known : Nat) (left : Duration) :
    ∃ w', pollTurn m known left w after = (.timedOut, w', .inl (.bare 204)) := by
  have hend := waitAsync_eq hwatch after left
  rw [if_neg (Nat.not_lt.2 hafter)] at hend
  refine ⟨(w.waitAsync m after left).1, ?_⟩
  have hwait : w.waitAsync m after left = ((w.waitAsync m after left).1, .timedOut) :=
    Prod.ext rfl hend
  rw [pollTurn, hwait]

/-- A wait that is woken is followed by a look at the delta. -/
theorem pollTurn_of_lt (hwatch : w[m].watch = .start w[m].store.revision)
    (hfree : m ∉ w.dispatching) {after : Nat} (hafter : after < w[m].store.revision)
    (known : Nat) (left : Duration) :
    ∃ w', pollTurn m known left w after = (.advanced w[m].store.revision, w',
      if (w[m].store.deltaDocument known).isNoop then .inr w[m].store.revision
      else .inl (.json 200 (w[m].store.deltaDocument known).render)) := by
  have hend := waitAsync_eq hwatch after left
  rw [if_pos hafter] at hend
  have hwait : w.waitAsync m after left =
      ((w.waitAsync m after left).1, .advanced w[m].store.revision) :=
    Prod.ext rfl hend
  have hdelta := perform_delta_of_free (w := (w.waitAsync m after left).1) n known hfree
  refine ⟨((w.waitAsync m after left).1.call (m, .delta known)).1, ?_⟩
  rw [pollTurn, hwait]
  simp only [call, hdelta]
  rfl

/-- The loop ends after one wait or two, and no later than the bounded one has to. -/
theorem polls_of_sound (hs : w[m].store.Sound)
    (hwatch : w[m].watch = .start w[m].store.revision) (hfree : m ∉ w.dispatching)
    (known : Nat) :
    ∃ waits w' response, Polls m known w known waits (w', response) ∧
      waits.length ≤ w[m].store.revision - known + 1 ∧
      (w[m].store.TouchedAfter known → waits = [(known, .advanced w[m].store.revision)] ∧
        response = .json 200 (w[m].store.deltaDocument known).render) ∧
      (¬ w[m].store.TouchedAfter known → response = .bare 204 ∧
        waits = if known < w[m].store.revision then
          [(known, .advanced w[m].store.revision), (w[m].store.revision, .timedOut)]
        else [(known, .timedOut)]) := by
  have hnoop := isNoop_deltaDocument hs known
  by_cases hafter : known < w[m].store.revision
  · obtain ⟨w₁, hturn⟩ := pollTurn_of_lt hwatch hfree hafter known ⟨0⟩
    by_cases htouched : w[m].store.TouchedAfter known
    · rw [if_neg fun h => hnoop.1 h htouched] at hturn
      exact ⟨_, _, _, .last hturn, Nat.le_add_left _ _, fun _ => ⟨rfl, rfl⟩,
        fun h => absurd htouched h⟩
    · rw [if_pos (hnoop.2 htouched)] at hturn
      -- the second turn waits beyond what the first one saw, which is all there is
      have huntouched := (pollTurn_counted m known ⟨0⟩ w known).1
      rw [hturn] at huntouched
      have hwatch₁ : w₁[m].watch = .start w₁[m].store.revision := by
        rw [huntouched.watch, hwatch, huntouched.revision]
      obtain ⟨w₂, hlast⟩ := pollTurn_of_le hwatch₁ (Nat.le_of_eq huntouched.revision) known ⟨0⟩
      have htwo : 2 ≤ w[m].store.revision - known + 1 := by omega
      rw [if_pos hafter]
      exact ⟨_, _, _, .next hturn (.last hlast), htwo, fun h => absurd h htouched,
        fun _ => ⟨rfl, rfl⟩⟩
  · have hle := Nat.not_lt.1 hafter
    obtain ⟨w₁, hturn⟩ := pollTurn_of_le hwatch hle known ⟨0⟩
    rw [if_neg hafter]
    exact ⟨_, _, _, .last hturn, Nat.le_add_left _ _,
      fun h => absurd h (not_touchedAfter_of_le hs hle), fun _ => ⟨rfl, rfl⟩⟩

theorem answerChanges_of_polls (hwatch : w[m].watch = .start w[m].store.revision)
    {query : ChangesQuery} {waits : List (Nat × WaitOutcome)} {result : World n × Response}
    (h : Polls m query.revision w query.revision waits result)
    (hturns : waits.length ≤ w[m].store.revision - query.revision + 1) (settings : Settings) :
    answerChanges settings w m query = (result.1, some result.2) := by
  have hchannel : w[m].watch.channel = w[m].store.revision := by
    rw [hwatch]
    rfl
  rw [answerChanges, hchannel]
  exact h.awaitChanges _ hturns

/-- A client that asks for what changed after a revision is answered after one wait, or after two
if the model has moved on and none of what happened can be seen, however much of the timeout is
left each time. It is answered with the delta as the model gives it, which then has something in
it, if an exposed element was touched after the revision, and otherwise with nothing; and the model
is left as it was. -/
theorem poll_ends (hr : Reachable m w) (hfree : m ∉ w.dispatching) (settings : Settings)
    (query : ChangesQuery) :
    let s := w[m].store
    let known := query.revision
    ∃ waits w' response,
      answerChanges settings w m query = (w', some response) ∧ Untouched m w w' ∧
      (∀ waits' result, Polls m known w known waits' result ↔
        waits' = waits ∧ result = (w', response)) ∧
      w'.metrics.waited = w.metrics.waited + waits.length ∧
      (s.TouchedAfter known → waits = [(known, .advanced s.revision)] ∧
        ∃ doc, (w.call (m, .delta known)).2 = .ok (.document doc) ∧ doc.isNoop = false ∧
          response = .json 200 doc.render) ∧
      (¬ s.TouchedAfter known → response = .bare 204 ∧
        waits = if known < s.revision then
          [(known, .advanced s.revision), (s.revision, .timedOut)]
        else [(known, .timedOut)]) := by
  intro s known
  obtain ⟨waits, w', response, hpolls, hturns, hdelta, hquiet⟩ :=
    polls_of_sound hr.sound hr.watch hfree known
  obtain ⟨huntouched, hwaited⟩ := hpolls.counted
  refine ⟨waits, w', response, answerChanges_of_polls hr.watch hpolls hturns settings,
    huntouched, fun waits' result => ⟨hpolls.functional, ?_⟩, hwaited, fun htouched => ?_, hquiet⟩
  · rintro ⟨rfl, rfl⟩
    exact hpolls
  · obtain ⟨hwaits, hresponse⟩ := hdelta htouched
    refine ⟨hwaits, s.deltaDocument known, ?_, ?_, hresponse⟩
    · rw [call, perform_delta_of_free n known hfree]
    · rw [Bool.eq_false_iff]
      exact fun h => (isNoop_deltaDocument hr.sound known).1 h htouched

/-- A model in which only what is hidden has changed since revision one. -/
def probed : World 1 :=
  alone
    [.add { key := "gain", value := .integer 1 },
     .add { key := "probe", value := .integer 7, exposed := false },
     .update "probe" (.integer 8)]

theorem poll_ends_probed :
    ∃ w₁ w₂,
      answerChanges {} probed 0 ⟨1, none⟩ = (w₁, some (.bare 204)) ∧
      Polls 0 1 probed 1 [(1, .advanced 3), (3, .timedOut)] (w₁, .bare 204) ∧
      w₁.metrics.waited = probed.metrics.waited + 2 ∧
      Polls 0 0 probed 0 [(0, .advanced 3)]
        (w₂, .json 200 (probed[(0 : Fin 1)].store.deltaDocument 0).render) := by
  have hr : Reachable 0 probed := reachable_alone _
  have hfree : (0 : Fin 1) ∉ probed.dispatching := free_alone _
  have hthree : probed[(0 : Fin 1)].store.revision = 3 := by with_unfolding_all decide
  have hnoop : (probed[(0 : Fin 1)].store.deltaDocument 1).isNoop = true := by
    with_unfolding_all decide
  have hgain : probed[(0 : Fin 1)].store.exposed? "gain" =
      some ⟨"gain", .integer 1, .unconstrained, none, 1, true⟩ := by with_unfolding_all decide
  obtain ⟨waits, w₁, response, hanswer, -, hpolls, hwaited, -, hquiet⟩ :=
    poll_ends hr hfree {} ⟨1, none⟩
  obtain ⟨rfl, rfl⟩ := hquiet ((isNoop_deltaDocument hr.sound 1).1 hnoop)
  obtain ⟨waits₂, w₂, response₂, -, -, hpolls₂, -, hdelta, -⟩ :=
    poll_ends hr hfree {} ⟨0, none⟩
  obtain ⟨rfl, doc, hdoc, -, rfl⟩ := hdelta ⟨"gain", _, hgain, by decide⟩
  rw [call, perform_delta_of_free 1 0 hfree] at hdoc
  cases hdoc
  have hfirst := (hpolls _ _).2 ⟨rfl, rfl⟩
  have hsecond := (hpolls₂ _ _).2 ⟨rfl, rfl⟩
  rw [hthree] at hfirst hsecond hwaited
  exact ⟨w₁, w₂, hanswer, hfirst, hwaited, hsecond⟩

end World

end SharedState
