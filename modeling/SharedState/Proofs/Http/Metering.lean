import SharedState.Proofs.Http.Loop
import SharedState.Proofs.World.Metering

/-!
# Nothing is counted twice or left out

A process is used by calls and waits, and by requests, which come to calls and
waits themselves. `Http.happenings` lists what a request comes to, by following
the handler: a poll asks for a delta after every wait that was woken, and throws
away those that have nothing in them, but each of them has been made.

With requests taken apart like this, a run of a process leaves records of the
calls and of the waits that ended, whoever made them, and the counters show just
what these are counted as. The counts of the changes come to the revision then,
because they do so in a new process and `Metering.lean` carries it along.
-/

namespace SharedState

variable {n : Nat}

namespace Http

open World

variable {w : World n} {m : Fin n}

/-! ## What a request comes to -/

/-- What one turn of the loop of a poll comes to, by the way in which its wait ended. -/
def turnHappenings (m : Fin n) (known after : Nat) (timeout : Duration) :
    WaitOutcome → List (Happening n)
  | .advanced _ => [.waitAsync m after timeout, .call (m, .delta known)]
  | _ => [.waitAsync m after timeout]

/-- What the loop of a poll comes to in at most the given number of turns. -/
def pollHappenings (m : Fin n) (known : Nat) (timeout : Duration) :
    Nat → World n → Nat → List (Happening n)
  | 0, _, _ => []
  | turns + 1, w, after =>
    let turn := pollTurn m known timeout w after
    turnHappenings m known after timeout turn.1 ++
      match turn.2.2 with
      | .inl _ => []
      | .inr after' => pollHappenings m known timeout turns turn.2.1 after'

def happeningsAt (settings : Settings) (w : World n) (m : Fin n) (request : Request) :
    Route → List (Happening n)
  | .fullModel => [.call (m, .full)]
  | .changes =>
    match ChangesQuery.read? request.query with
    | some query =>
      pollHappenings m query.revision (settings.longPollTimeout query.timeout)
        (w[m].watch.channel - query.revision + 1) w query.revision
    | none => []
  | .updates =>
    if settings.maxDocumentBytes < request.body.size then [] else [.call (m, .submit request.body)]
  | .info => [.call (m, .look)]
  | .health | .metrics => []

/-- The calls and waits that a request comes to, in order. -/
def happenings (settings : Settings) (w : World n) (m : Fin n) (request : Request) :
    List (Happening n) :=
  if request.method = "OPTIONS" then []
  else
    match Route.ofPath? request.path with
    | none => []
    | some route =>
      if request.method = route.method ∨ request.method = "HEAD" ∧ route.method = "GET" then
        happeningsAt settings w m request route
      else []

theorem course_turnHappenings (known after : Nat) (timeout : Duration) (w : World n) :
    let turn := pollTurn m known timeout w after
    w.course (turnHappenings m known after timeout turn.1) = turn.2.1 := by
  simp only [pollTurn]
  split
  · next w₁ revision hwait =>
    have hwoken : w.happen (.waitAsync m after timeout) = w₁ := congrArg Prod.fst hwait
    split
    · next w₂ doc hcall =>
      have hasked : w₁.happen (.call (m, .delta known)) = w₂ := congrArg Prod.fst hcall
      rw [turnHappenings, course, List.foldl_cons, List.foldl_cons, hwoken, hasked]
      rfl
    · next w₂ reply _ hcall =>
      have hasked : w₁.happen (.call (m, .delta known)) = w₂ := congrArg Prod.fst hcall
      rw [turnHappenings, course, List.foldl_cons, List.foldl_cons, hwoken, hasked]
      rfl
  · next w₁ outcome hslept hwait =>
    have hover : w.happen (.waitAsync m after timeout) = w₁ := congrArg Prod.fst hwait
    cases outcome with
    | advanced revision => exact absurd rfl (hslept revision)
    | timedOut | cancelled => exact hover

theorem course_pollHappenings (known : Nat) (timeout : Duration) (turns : Nat) (w : World n)
    (after : Nat) :
    w.course (pollHappenings m known timeout turns w after) =
      (awaitChanges m known timeout turns w after).1 := by
  induction turns generalizing w after with
  | zero => rfl
  | succ turns ih =>
      have hturn := course_turnHappenings (m := m) known after timeout w
      rw [awaitChanges_succ, pollHappenings, course, List.foldl_append]
      rcases hp : pollTurn m known timeout w after with ⟨outcome, w', response | after'⟩
      · rw [hp] at hturn
        exact hturn
      · rw [hp] at hturn
        show course (w.course _) _ = _
        rw [hturn]
        exact ih w' after'

theorem course_happeningsAt (settings : Settings) (w : World n) (m : Fin n) (request : Request)
    (route : Route) :
    w.course (happeningsAt settings w m request route) =
      (answerAt settings w m request route).1 := by
  cases route with
  | changes =>
      rw [happeningsAt, answerAt]
      cases ChangesQuery.read? request.query with
      | some query => exact course_pollHappenings ..
      | none => rfl
  | updates =>
      simp only [happeningsAt, answerAt]
      split <;> rfl
  | fullModel | info | health | metrics => rfl

/-- What a request comes to leaves the world that the request leaves. -/
theorem course_happenings (settings : Settings) (w : World n) (m : Fin n) (request : Request) :
    w.course (happenings settings w m request) = (answer settings w m request).1 := by
  rw [happenings, answer]
  split
  · rfl
  · cases Route.ofPath? request.path with
    | none => rfl
    | some route =>
        have hat := course_happeningsAt settings w m request route
        show w.course (ite _ _ _) = (ite _ _ _ : World n × Option Response).1
        by_cases hmethod : request.method = route.method
        · rw [if_pos (.inl hmethod), if_pos hmethod]
          exact hat
        · by_cases hhead : request.method = "HEAD" ∧ route.method = "GET"
          · rw [if_pos (.inr hhead), if_neg hmethod, if_pos hhead]
            exact hat
          · rw [if_neg (not_or.2 ⟨hmethod, hhead⟩), if_neg hmethod, if_neg hhead]
            rfl

end Http

/-! ## Runs of a process -/

/-- What can be done with a process: what can happen in its world, a wait that goes on while other
things happen and is cancelled after them, and a request. -/
inductive Activity (n : Nat)
  | happening (x : Happening n)
  | waitDuring (m : Fin n) (after : Nat) (meanwhile : List (Happening n))
  | request (settings : Settings) (m : Fin n) (request : Http.Request)

namespace World

def act (w : World n) : Activity n → World n
  | .happening x => w.happen x
  | .waitDuring m after meanwhile => (w.waitDuring m after fun w => (w.course meanwhile, ())).1
  | .request settings m request => (Http.answer settings w m request).1

/-- The records that an activity leaves. -/
def records (w : World n) : Activity n → List (Record n)
  | .happening x => w.happeningRecords x
  | .waitDuring m after meanwhile =>
    let (_, _, outcome) := w.waitDuring m after fun w => (w.course meanwhile, ())
    w.courseRecords meanwhile ++ [.wait outcome]
  | .request settings m request => w.courseRecords (Http.happenings settings w m request)

theorem counts_act (w : World n) (activity : Activity n) :
    Counts ((w.records activity).map Record.tally).sum w (w.act activity) := by
  cases activity with
  | happening x => exact counts_happen w x
  | waitDuring m after meanwhile =>
      rw [records, List.map_append, List.sum_append, List.map_singleton, List.sum_singleton]
      exact (counts_course w meanwhile).trans (counts_count (Metrics.raises_countWait _))
  | request settings m request =>
      rw [act, ← Http.course_happenings]
      exact counts_course w _

theorem accounted_start (policies : Vector Policy n) : (start policies).Accounted where
  sound m := by
    rw [start_getElem]
    exact Store.sound_empty _
  mutations := by
    have hnone : ∀ m : Fin n, (start policies)[m].store.revision = 0 := by
      intro m
      rw [start_getElem]
      rfl
    rw [Finset.sum_eq_zero fun m _ => hnone m]
    rfl
  gauges hsome := absurd rfl hsome

theorem tally_waited (record : Record n) :
    record.tally .advanced + record.tally .timedOut + record.tally .cancelled =
      if record.isWait then 1 else 0 := by
  cases record with
  | call op reply =>
      have hnone := Counter.ofCall_ofWait op reply
      show Counter.ofCall op reply (.ofWait (.advanced 0)) + Counter.ofCall op reply
        (.ofWait .timedOut) + Counter.ofCall op reply (.ofWait .cancelled) = 0
      rw [hnone, hnone, hnone]
  | wait outcome => cases outcome <;> rfl

theorem sum_tally_waited (records : List (Record n)) :
    let tally := (records.map Record.tally).sum
    tally .advanced + tally .timedOut + tally .cancelled = records.countP Record.isWait := by
  induction records with
  | nil => rfl
  | cons record rest ih =>
      have hrecord := tally_waited record
      simp only [List.map_cons, List.sum_cons, Pi.add_apply] at ih ⊢
      rw [List.countP_cons]
      omega

/-- A process with one model counts right, whatever is done with it. Each counter shows what the
records of all calls and waits come to, those included that listeners and requests make. The
changes that were counted are as many as the revision says, the gauges show the model once
something has been committed, and the waits that were counted are those that have ended. -/
theorem counters_conserved (policy : Policy) (activities : List (Activity 1)) :
    let first : World 1 := start (.replicate 1 policy)
    let last := activities.foldl act first
    let model := last[(0 : Fin 1)]
    let log := alongFold act records first activities
    (∀ counter, last.metrics.reading counter = (log.map fun record => record.tally counter).sum) ∧
      last.metrics.mutations = model.store.revision ∧
      (model.store.revision ≠ 0 → last.metrics.revision = model.store.revision ∧
        last.metrics.elements = model.store.elements.size) ∧
      last.metrics.waited = log.countP Record.isWait ∧
      ∀ (w : World 1) settings m request,
        (Http.answer settings w m request).1 = w.course (Http.happenings settings w m request) := by
  intro first last model log
  obtain ⟨hlast, hreading⟩ := counts_alongFold counts_act activities first
    (accounted_start (.replicate 1 policy))
  have hnone : first.metrics.reading = 0 := by
    funext counter
    rcases counter with (_ | _ | _ | _) | _ | _ | _ | _ | _ | _ | _ <;> rfl
  rw [hnone, zero_add] at hreading
  have hrevision : last.metrics.mutations = model.store.revision := by
    rw [hlast.mutations, Fin.sum_univ_one]
  refine ⟨fun counter => ?_, hrevision, fun hsome => ?_, ?_,
    fun w settings m request => (Http.course_happenings settings w m request).symm⟩
  · have hsum := Pi.list_sum_apply counter (log.map Record.tally)
    rw [List.map_map] at hsum
    rw [hreading]
    exact hsum
  · obtain ⟨m, hgauges⟩ := hlast.gauges (hrevision ▸ hsome)
    rwa [Fin.fin_one_eq_zero m] at hgauges
  · show last.metrics.reading .advanced + last.metrics.reading .timedOut +
      last.metrics.reading .cancelled = _
    rw [hreading]
    exact sum_tally_waited log

/-- A hidden element is added and updated under the ears of a listener that answers with bytes that
are no document, a client polls for what there is to see of it, and a document is applied that
names it. -/
def hushed : List (Activity 1) :=
  [.happening (.call (.last 0, .register (.mk .all (fun _ =>
      [(.last 0, .submit ⟨#[0]⟩), (.last 0, .update "probe" (.integer 9))]) none))),
   .happening (.call (.last 0, .add { key := "probe", value := .integer 7, exposed := false })),
   .waitDuring (.last 0) 1 [.call (.last 0, .update "probe" (.integer 8))],
   .request {} (.last 0) { method := "GET",
                           target := "/getExposedModelUpdate?revision=0&timeout_ms=1".toList },
   .happening (.call (.last 0, .apply { state := [⟨"probe", .string "9"⟩] }))]

theorem counters_conserved_hushed :
    let metrics := (hushed.foldl act (start (.replicate 1 .ignore))).metrics
    (metrics.updated = 1 ∧ metrics.delta = 1 ∧ metrics.applied = 1 ∧ metrics.rejected = 3) ∧
      metrics.waited = 3 ∧
      (metrics.mutations = 2 ∧ metrics.revision = 2 ∧ metrics.elements = 1) := by
  intro metrics
  obtain ⟨hreading, hmutations, hgauges, hwaited, -⟩ := counters_conserved .ignore hushed
  have hrevision : (hushed.foldl act (start (.replicate 1 .ignore)))[(0 : Fin 1)].store.revision =
      2 := by with_unfolding_all decide
  have hsize : (hushed.foldl act
      (start (.replicate 1 .ignore)))[(0 : Fin 1)].store.elements.size = 1 := by
    with_unfolding_all decide
  obtain ⟨hshown, hheld⟩ := hgauges (by rw [hrevision]; decide)
  refine ⟨⟨?_, ?_, ?_, ?_⟩, ?_, hmutations.trans hrevision, hshown.trans hrevision,
    hheld.trans hsize⟩
  · exact (hreading (.mutation .update)).trans (by with_unfolding_all decide)
  · exact (hreading .delta).trans (by with_unfolding_all decide)
  · exact (hreading .applied).trans (by with_unfolding_all decide)
  · exact (hreading .rejected).trans (by with_unfolding_all decide)
  · exact hwaited.trans (by with_unfolding_all decide)

end World

end SharedState
