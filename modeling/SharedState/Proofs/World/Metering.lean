import Mathlib.Algebra.BigOperators.Fin
import Mathlib.Algebra.BigOperators.Group.List.Basic
import Mathlib.Algebra.Group.Pi.Lemmas
import SharedState.Proofs.World.Course
import SharedState.Proofs.World.Nesting

/-!
# The counters of a process

A process counts the changes that its models commit, the documents that they
make and those that they are given, and the waits that end. A counter is raised
somewhere inside an operation; what it ought to show can be told from outside,
from the calls with their replies: `Counter.ofCall`.

A call brings about others, and these are counted like itself. So what a call
adds to the counters is the sum over its turns (`Nesting.lean`), which is proved
by climbing the tower of the interpreter once more, this time with a tally:
`Counts tally w w'` says that the counters were raised by the tally on the way
from one world to the other. Tallies are functions on the counters, and those of
consecutive steps add up.

That the counts of changes come to the revisions, and that the gauges show the
model that committed last, is an invariant of the worlds on the way,
`Accounted`. It has to be carried along, for a document is only counted rightly
by a sound store, which commits all of the planned updates or none.
-/

namespace SharedState

variable {n : Nat}

/-! ## What is committed -/

namespace Store

variable {s : Store} {key : String} {done : Store × Commit}

theorem mutation_add {spec : Spec} (h : s.add spec = .ok done) : done.2.mutation = .add := by
  obtain ⟨-, e, -, rfl⟩ := add_eq_ok_iff.1 h
  rfl

theorem mutation_update {value : Value} (h : s.update key value = .ok done) :
    done.2.mutation = .update := by
  obtain ⟨e, -, -, rfl⟩ := update_eq_ok_iff.1 h
  rfl

theorem mutation_annotate {label : String} (h : s.annotate key label = .ok done) :
    done.2.mutation = .annotate := by
  obtain ⟨e, -, rfl⟩ := annotate_eq_ok_iff.1 h
  rfl

theorem mutation_remove (h : s.remove key = .ok done) : done.2.mutation = .remove := by
  obtain ⟨e, -, rfl⟩ := remove_eq_ok_iff.1 h
  rfl

end Store

/-! ## Counters -/

/-- What a process counts. -/
inductive Counter
  | mutation (kind : Mutation)
  | full
  | delta
  | applied
  | rejected
  | advanced
  | timedOut
  | cancelled
deriving DecidableEq

/-- What the end of a wait is counted as. -/
def Counter.ofWait : WaitOutcome → Counter
  | .advanced _ => .advanced
  | .timedOut => .timedOut
  | .cancelled => .cancelled

namespace Metrics

def reading (x : Metrics) : Counter → Nat
  | .mutation .add => x.added
  | .mutation .update => x.updated
  | .mutation .remove => x.removed
  | .mutation .annotate => x.annotated
  | .full => x.full
  | .delta => x.delta
  | .applied => x.applied
  | .rejected => x.rejected
  | .advanced => x.advanced
  | .timedOut => x.timedOut
  | .cancelled => x.cancelled

/-- The number of changes of all sorts. -/
def mutations (x : Metrics) : Nat := x.added + x.updated + x.removed + x.annotated

variable {x : Metrics} {kind : Mutation} {revision elements : Nat}

theorem reading_commit : (x.commit kind revision elements).reading =
    x.reading + Pi.single (.mutation kind) 1 := by
  funext k
  cases kind <;> rcases k with (_ | _ | _ | _) | _ | _ | _ | _ | _ | _ | _ <;> rfl

theorem mutations_commit : (x.commit kind revision elements).mutations = x.mutations + 1 := by
  cases kind <;> simp only [commit, mutations] <;> omega

theorem gauges_commit : (x.commit kind revision elements).revision = revision ∧
    (x.commit kind revision elements).elements = elements := by
  cases kind <;> exact ⟨rfl, rfl⟩

/-- One counter is raised, which is none of changes, and the gauges are left alone. -/
def Raises (f : Metrics → Metrics) (counter : Counter) : Prop :=
  ∀ x, (f x).reading = x.reading + Pi.single counter 1 ∧ (f x).mutations = x.mutations ∧
    (f x).revision = x.revision ∧ (f x).elements = x.elements

theorem raises_countFull : Raises countFull .full := by
  refine fun x => ⟨funext fun k => ?_, rfl, rfl, rfl⟩
  rcases k with (_ | _ | _ | _) | _ | _ | _ | _ | _ | _ | _ <;> rfl

theorem raises_countDelta : Raises countDelta .delta := by
  refine fun x => ⟨funext fun k => ?_, rfl, rfl, rfl⟩
  rcases k with (_ | _ | _ | _) | _ | _ | _ | _ | _ | _ | _ <;> rfl

theorem raises_countUnreadable : Raises countUnreadable .rejected := by
  refine fun x => ⟨funext fun k => ?_, rfl, rfl, rfl⟩
  rcases k with (_ | _ | _ | _) | _ | _ | _ | _ | _ | _ | _ <;> rfl

theorem raises_countApply (accepted : Bool) :
    Raises (·.countApply accepted) (if accepted then .applied else .rejected) := by
  cases accepted <;> refine fun x => ⟨funext fun k => ?_, rfl, rfl, rfl⟩ <;>
    rcases k with (_ | _ | _ | _) | _ | _ | _ | _ | _ | _ | _ <;> rfl

theorem raises_countWait (outcome : WaitOutcome) :
    Raises (·.countWait outcome) (.ofWait outcome) := by
  cases outcome <;> refine fun x => ⟨funext fun k => ?_, rfl, rfl, rfl⟩ <;>
    rcases k with (_ | _ | _ | _) | _ | _ | _ | _ | _ | _ | _ <;> rfl

end Metrics

namespace Counter

/-- How often a call is counted, and as what, by the reply that it got. -/
def ofCall (op : Operation (Listener n)) (reply : Reply) : Counter → Nat :=
  match op, reply with
  | .add _, .ok _ => Pi.single (.mutation .add) 1
  | .update _ _, .ok _ => Pi.single (.mutation .update) 1
  | .remove _, .ok _ => Pi.single (.mutation .remove) 1
  | .annotate _ _, .ok _ => Pi.single (.mutation .annotate) 1
  | .full, .ok _ => Pi.single .full 1
  | .delta _, .ok _ => Pi.single .delta 1
  | .apply _, .ok (.report report) | .submit _, .ok (.report report) =>
    Pi.single (.mutation .update) report.applied.length + Pi.single .applied 1
  | .apply _, .error error | .submit _, .error error =>
    if error = .reentrantAccess then 0 else Pi.single .rejected 1
  | _, _ => 0

theorem ofCall_readDocument (op : Operation (Listener n)) (reply : Reply) :
    ofCall (World.readDocument op) reply = ofCall op reply := by
  cases op with
  | submit bytes =>
      rw [World.readDocument]
      split
      · cases reply with
        | ok outcome => cases outcome <;> rfl
        | error => rfl
      · rfl
  | _ => rfl

/-- No call is counted as a wait. -/
theorem ofCall_ofWait (op : Operation (Listener n)) (reply : Reply) (outcome : WaitOutcome) :
    ofCall op reply (ofWait outcome) = 0 := by
  unfold ofCall
  split
  case h_9 | h_10 => split <;> cases outcome <;> rfl
  all_goals cases outcome <;> rfl

theorem ofCall_reentrantAccess (op : Operation (Listener n)) :
    ofCall op (.error .reentrantAccess) = 0 := by
  cases op <;> rfl

end Counter

namespace World

variable {w w' w'' : World n} {i : Fin n} {tally tally' : Counter → Nat}

/-! ## Tallies -/

/-- The changes that were counted made the revisions, and the gauges show the model that committed
last. -/
structure Accounted (w : World n) : Prop where
  sound : ∀ m : Fin n, w[m].store.Sound
  mutations : w.metrics.mutations = ∑ m : Fin n, w[m].store.revision
  gauges : w.metrics.mutations ≠ 0 → ∃ m : Fin n,
    w.metrics.revision = w[m].store.revision ∧ w.metrics.elements = w[m].store.elements.size

/-- The counters are raised by the tally. -/
def Counts (tally : Counter → Nat) (w w' : World n) : Prop :=
  w.Accounted → w'.Accounted ∧ w'.metrics.reading = w.metrics.reading + tally

theorem Counts.trans (h : Counts tally w w') (h' : Counts tally' w' w'') :
    Counts (tally + tally') w w'' := by
  intro hw
  obtain ⟨hw', hcount⟩ := h hw
  obtain ⟨hw'', hcount'⟩ := h' hw'
  exact ⟨hw'', by rw [hcount', hcount, add_assoc]⟩

theorem Counts.before (h : Counts 0 w w') (h' : Counts tally w' w'') : Counts tally w w'' := by
  have hboth := h.trans h'
  rwa [zero_add] at hboth

theorem Counts.after (h : Counts tally w w') (h' : Counts 0 w' w'') : Counts tally w w'' := by
  have hboth := h.trans h'
  rwa [add_zero] at hboth

/-- What neither commits nor touches the gauges leaves the accounts in order. -/
theorem Accounted.congr (h : w.Accounted) (hsound : ∀ m : Fin n, w'[m].store.Sound)
    (hstores : ∀ m : Fin n, w'[m].store.revision = w[m].store.revision ∧
      w'[m].store.elements = w[m].store.elements)
    (hmutations : w'.metrics.mutations = w.metrics.mutations)
    (hgauges : w'.metrics.revision = w.metrics.revision ∧
      w'.metrics.elements = w.metrics.elements) : w'.Accounted where
  sound := hsound
  mutations := by
    rw [hmutations, h.mutations]
    exact Finset.sum_congr rfl fun m _ => (hstores m).1.symm
  gauges hsome := by
    obtain ⟨m, hrevision, helements⟩ := h.gauges (hmutations ▸ hsome)
    refine ⟨m, ?_, ?_⟩
    · rw [hgauges.1, hrevision, (hstores m).1]
    · rw [hgauges.2, helements, (hstores m).2]

theorem counts_aside (hmodels : w'.models = w.models) (hmetrics : w'.metrics = w.metrics) :
    Counts 0 w w' := by
  intro hw
  have hsame := getElem_of_models hmodels
  refine ⟨hw.congr (fun m => (hsame m).symm ▸ hw.sound m) (fun m => ?_) (by rw [hmetrics])
    (by rw [hmetrics]; exact ⟨rfl, rfl⟩), by rw [hmetrics, add_zero]⟩
  rw [hsame m]
  exact ⟨rfl, rfl⟩

/-- A model that goes through silent steps is not counted. -/
theorem counts_silent {model : Model n} (h : w[i].Evolves [] model) :
    Counts 0 w (w.replace i model) := by
  intro hw
  have hmodel : ∀ m : Fin n, w[m].Evolves [] (w.replace i model)[m] := by
    intro m
    by_cases hm : m = i
    · subst hm
      rwa [replace_getElem_self]
    · rw [replace_getElem_of_ne hm]
      exact .refl
  refine ⟨hw.congr (fun m => (hmodel m).sound (hw.sound m)) (fun m => ?_) rfl ⟨rfl, rfl⟩, rfl⟩
  exact ⟨(hmodel m).revisions.1, (hmodel m).elements⟩

theorem counts_count {f : Metrics → Metrics} {counter : Counter} (h : Metrics.Raises f counter) :
    Counts (Pi.single counter 1) w (w.count f) := by
  intro hw
  obtain ⟨hreading, hmutations, hgauges⟩ := h w.metrics
  exact ⟨hw.congr hw.sound (fun _ => ⟨rfl, rfl⟩) hmutations hgauges, hreading⟩

/-- A commit raises one counter, makes one revision of one model, and sets the gauges to that
model. -/
theorem counts_publish {done : Store × Commit} (h : w[i].store.Step done) :
    Counts (Pi.single (.mutation done.2.mutation) 1) w (w.publish i done.1 done.2) := by
  intro hw
  obtain ⟨hstore, hcommit, -, -⟩ := h.counts
  have hself : (w.publish i done.1 done.2)[i] = w[i].committed done := replace_getElem_self ..
  have hother : ∀ m, m ≠ i → (w.publish i done.1 done.2)[m] = w[m] := fun m hm =>
    replace_getElem_of_ne hm
  have hmetrics : (w.publish i done.1 done.2).metrics =
      w.metrics.commit done.2.mutation done.2.revision done.1.elements.size := rfl
  refine ⟨⟨fun m => ?_, ?_, fun _ => ⟨i, ?_, ?_⟩⟩, ?_⟩
  · by_cases hm : m = i
    · subst hm
      rw [hself]
      exact (hw.sound m).step h
    · rw [hother m hm]
      exact hw.sound m
  · have hrest : ∑ m ∈ Finset.univ.erase i, (w.publish i done.1 done.2)[m].store.revision =
        ∑ m ∈ Finset.univ.erase i, w[m].store.revision :=
      Finset.sum_congr rfl fun m hm => by rw [hother m (Finset.ne_of_mem_erase hm)]
    rw [hmetrics, Metrics.mutations_commit, hw.mutations,
      ← Finset.add_sum_erase _ _ (Finset.mem_univ i),
      ← Finset.add_sum_erase _ _ (Finset.mem_univ i), hrest, hself]
    show _ = done.1.revision + _
    omega
  · rw [hself, hmetrics, Metrics.gauges_commit.1, hcommit, ← hstore]
    rfl
  · rw [hself, hmetrics, Metrics.gauges_commit.2]
    rfl
  · rw [hmetrics, Metrics.reading_commit]

/-! ## Up the tower -/

/-- What the calls of a told listener are counted as. -/
def askedTally (call : World n → Call n → World n × Reply)
    (tally : World n → Call n → Counter → Nat) (t : Telling n) : Counter → Nat :=
  ((t.asked call).map fun a => tally a.1 a.2).sum

/-- The tallies of what is seen along a fold add up to that of the fold. -/
theorem counts_alongFold {α β : Type} {step : World n → α → World n}
    {look : World n → α → List β} {tally : β → Counter → Nat}
    (hstep : ∀ w a, Counts ((look w a).map tally).sum w (step w a)) (l : List α) (w : World n) :
    Counts ((alongFold step look w l).map tally).sum w (l.foldl step w) := by
  induction l generalizing w with
  | nil => exact counts_aside rfl rfl
  | cons a rest ih =>
      rw [alongFold, List.map_append, List.sum_append]
      exact (hstep w a).trans (ih (step w a))

section tower

variable {call : World n → Call n → World n × Reply} {tally : World n → Call n → Counter → Nat}
  (hc : ∀ w c, Counts (tally w c) w (call w c).1)
include hc

theorem counts_callAll (calls : List (Call n)) (w : World n) :
    Counts ((alongFold (fun w c => (call w c).1) (fun w c => [(w, c)]) w calls).map
      fun a => tally a.1 a.2).sum w (callAll call w calls).1 := by
  have hfold : (callAll call w calls).1 = calls.foldl (fun w c => (call w c).1) w := by
    induction calls generalizing w with
    | nil => rfl
    | cons c rest ih => exact ih (call w c).1
  rw [hfold]
  refine counts_alongFold (fun w c => ?_) calls w
  rw [List.map_singleton, List.sum_singleton]
  exact hc w c

theorem counts_tell (event : Event) (w : World n) (listener : Listener n) :
    Counts (askedTally call tally ⟨i, event, listener, w⟩) w (tell call i event w listener) := by
  have hcalls := counts_callAll hc (listener.calls event) w
  have hpost : Counts 0 (callAll call w (listener.calls event)).1
      (tell call i event w listener) := by
    rw [tell]
    cases listener.inbox <;> exact counts_aside rfl rfl
  exact hcalls.after hpost

theorem counts_dispatch (w : World n) (event : Event) :
    Counts ((dispatchTold call i w event).map (askedTally call tally)).sum w
      (dispatch call i w event) := by
  rw [dispatch_eq]
  split
  · next hnone =>
    have hempty : dispatchTold call i w event = [] := by
      rw [dispatchTold, Registry.audience, List.isEmpty_iff.1 hnone]
      rfl
    rw [hempty]
    exact counts_aside rfl rfl
  · have htell : ∀ w listener,
        Counts ([(⟨i, event, listener, w⟩ : Telling n)].map (askedTally call tally)).sum w
          (tell call i event w listener) := by
      intro w listener
      rw [List.map_singleton, List.sum_singleton]
      exact counts_tell hc event w listener
    have hmark : Counts 0 w (w.mark i) := counts_aside rfl rfl
    have hall := counts_alongFold htell (w[i].registry.audience event.kind) (w.mark i)
    have hunmark : ∀ w' : World n, Counts 0 w' (w'.unmark i) := fun _ => counts_aside rfl rfl
    exact (hmark.before hall).after (hunmark _)

theorem counts_change {done : Store × Commit} (h : w[i].store.Step done) :
    Counts (Pi.single (.mutation done.2.mutation) 1 +
        ((changeTold call i w (.ok done)).map (askedTally call tally)).sum) w
      (change call w i (.ok done)).1 :=
  (counts_publish h).trans (counts_alongFold (counts_dispatch hc) done.2.events _)

/-- Updates that are all taken are all counted. -/
theorem counts_updateAll (hm : RespectsMarks call) {updates : List (String × Value)}
    (hs : w[i].store.Sound) (ht : w[i].store.Takes updates) :
    Counts (Pi.single (.mutation .update) updates.length +
        ((updatesTold call i w updates).map (askedTally call tally)).sum) w
      (w.updateAll call i updates) := by
  induction updates generalizing w with
  | nil =>
      rw [List.length_nil, Pi.single_zero]
      exact counts_aside rfl rfl
  | cons u rest ih =>
      obtain ⟨done, hd, hs', ht'⟩ := hs.first ht
      have hstore := change_store hm w i done
      have hfirst := counts_change hc (.update hd)
      have hrest := ih (hstore ▸ hs') (hstore ▸ ht')
      rw [Store.mutation_update hd] at hfirst
      rw [updateAll_cons hd, updatesTold, hd, List.map_append, List.sum_append, List.length_cons,
        Nat.add_comm, Pi.single_add, add_add_add_comm]
      exact hfirst.trans hrest

theorem counts_applyDocument (hm : RespectsMarks call) (hs : w[i].store.Sound) (doc : Document) :
    Counts (Counter.ofCall (n := n) (.apply doc) (applyDocument call w i doc).2 +
        ((documentTold call i w doc).map (askedTally call tally)).sum) w
      (applyDocument call w i doc).1 := by
  have hplanned : Counts 0 w (w.setStore i (w[i].store.afterPlanning doc)) :=
    counts_silent (Model.Evolves.refl.afterPlanning doc)
  cases hp : w[i].store.plan doc with
  | error error =>
      have hreentrant : error ≠ .reentrantAccess := by
        rintro rfl
        cases w[i].store.plan_namesKey doc _ hp
      have hcall : Counter.ofCall (n := n) (.apply doc) (.error error) = Pi.single .rejected 1 :=
        if_neg hreentrant
      rw [applyDocument_of_plan_error call hp, documentTold, hp, hcall]
      exact hplanned.before (counts_count (Metrics.raises_countApply false))
  | ok plan =>
      have hstore : (w.setStore i (w[i].store.afterPlanning doc))[i].store =
          w[i].store.afterPlanning doc := congrArg Model.store (setStore_getElem_self w _)
      have htakes : w[i].store.Takes plan.updates := by
        obtain ⟨href, rfl⟩ := hs.plan_eq_ok_iff.1 hp
        exact Store.takes_of_not_refuses href
      have hs' := hs.afterPlanning doc
      have ht' := htakes.afterPlanning doc
      rw [← hstore] at hs' ht'
      have hrevision : ({ ignored := plan.ignored, revision := w[i].store.revision } :
          Report).revision = (w.setStore i (w[i].store.afterPlanning doc))[i].store.revision := by
        rw [hstore, Store.afterPlanning_revision]
      have happly := applyUpdates_eq hm hs' ht' hrevision
      have hupdates := hplanned.before (counts_updateAll hc hm hs' ht')
      simp only [applyDocument, planAndApply, documentTold, hp, happly, Counter.ofCall,
        List.nil_append, List.length_map]
      rw [add_right_comm]
      exact hupdates.trans (counts_count (Metrics.raises_countApply true))

theorem counts_replyRevision {op : Operation (Listener n)} {kind : Mutation}
    {result : Except Error (Store × Commit)}
    (hstep : ∀ done, result = .ok done → w[i].store.Step done ∧ done.2.mutation = kind)
    (hok : ∀ outcome, Counter.ofCall op (.ok outcome) = Pi.single (.mutation kind) 1)
    (herror : ∀ error, Counter.ofCall op (.error error) = 0) :
    Counts (Counter.ofCall op (replyRevision (change call w i result)).2 +
        ((changeTold call i w result).map (askedTally call tally)).sum) w
      (replyRevision (change call w i result)).1 := by
  cases result with
  | error error =>
      show Counts (Counter.ofCall op (.error error) + 0) w w
      rw [herror]
      exact counts_aside rfl rfl
  | ok done =>
      obtain ⟨hdone, hkind⟩ := hstep done rfl
      show Counts (Counter.ofCall op (.ok (.revision done.2.revision)) + _) w _
      rw [hok, ← hkind]
      exact counts_change hc hdone

/-- A call is counted by its reply, and so are the calls that it brings about. -/
theorem counts_operate (hm : RespectsMarks call) (hs : w[i].store.Sound)
    (op : Operation (Listener n)) :
    Counts (Counter.ofCall op (operate call w i op).2 +
        ((operationTold call i w op).map (askedTally call tally)).sum) w
      (operate call w i op).1 := by
  have hkept : Counts 0 w (w.setStore i w[i].store.keepSchema) :=
    counts_silent Model.Evolves.refl.keepSchema
  cases op with
  | add spec =>
      exact counts_replyRevision hc (fun _ hd => ⟨.add hd, Store.mutation_add hd⟩)
        (fun _ => rfl) fun _ => rfl
  | update key value =>
      exact counts_replyRevision hc (fun _ hd => ⟨.update hd, Store.mutation_update hd⟩)
        (fun _ => rfl) fun _ => rfl
  | remove key =>
      exact counts_replyRevision hc (fun _ hd => ⟨.remove hd, Store.mutation_remove hd⟩)
        (fun _ => rfl) fun _ => rfl
  | annotate key label =>
      exact counts_replyRevision hc (fun _ hd => ⟨.annotate hd, Store.mutation_annotate hd⟩)
        (fun _ => rfl) fun _ => rfl
  | apply doc => exact counts_applyDocument hc hm hs doc
  | submit bytes => exact counts_count Metrics.raises_countUnreadable
  | full => exact hkept.before (counts_count Metrics.raises_countFull)
  | delta since => exact hkept.before (counts_count Metrics.raises_countDelta)
  | schema => exact hkept
  | look => exact counts_aside rfl rfl
  | setLayout layout => exact counts_silent (Model.Evolves.refl.setLayout layout)
  | register | unregister => exact counts_silent (Model.Evolves.refl.setRegistry _)

theorem counts_answer (hm : RespectsMarks call) (w : World n) (c : Call n) :
    Counts (Counter.ofCall c.2 (answer call w c).2 +
        ((toldBy call w c).map (askedTally call tally)).sum) w (answer call w c).1 := by
  intro hw
  by_cases hrefused : c.1 ∈ w.dispatching ∧ ¬ isSubmission (readDocument c.2) = true
  · obtain ⟨hmarked, hread⟩ := hrefused
    rw [answer_of_marked hmarked (Bool.eq_false_iff.2 hread), toldBy_of_marked hmarked,
      Counter.ofCall_reentrantAccess]
    exact counts_aside rfl rfl hw
  · have hanswer : answer call w c = operate call w c.1 (readDocument c.2) := if_neg hrefused
    have htold : toldBy call w c = operationTold call c.1 w (readDocument c.2) := by
      by_cases hmarked : c.1 ∈ w.dispatching
      · have hsubmission : isSubmission (readDocument c.2) = true :=
          Decidable.not_not.1 fun hread => hrefused ⟨hmarked, hread⟩
        rw [toldBy_of_marked hmarked]
        cases hop : readDocument c.2 with
        | submit bytes => rfl
        | _ => simp [hop, isSubmission] at hsubmission
      · exact toldBy_of_free hmarked
    rw [hanswer, htold, ← Counter.ofCall_readDocument]
    exact counts_operate hc hm (hw.sound c.1) (readDocument c.2) hw

end tower

/-! ## Turns -/

/-- What turns are counted as, each by itself. -/
def turnsTally (turns : List (Turn n)) : Counter → Nat :=
  (turns.map fun x => Counter.ofCall x.call.2 x.reply).sum

theorem sum_map_flatMap {α β : Type} (l : List α) (f : α → List β) (g : β → Counter → Nat) :
    ((l.flatMap f).map g).sum = (l.map fun a => ((f a).map g).sum).sum := by
  rw [List.map_flatMap, List.flatMap_def, List.sum_flatten, List.map_map]
  rfl

/-- A call raises the counters by what its turns are counted as. -/
theorem counts_perform (depth : Nat) (nest : List (Fin n)) (w : World n) (c : Call n) :
    Counts (turnsTally (turns depth nest w c)) w (perform depth w c).1 := by
  induction depth generalizing nest w c with
  | zero =>
      rw [turns, turnsTally, List.map_singleton, List.sum_singleton,
        Counter.ofCall_reentrantAccess]
      exact counts_aside rfl rfl
  | succ depth ih =>
      have hanswer := counts_answer (ih (c.1 :: nest)) (perform_respectsMarks depth) w c
      simp only [turns, turnsTally, List.map_cons, List.sum_cons, sum_map_flatMap]
      exact hanswer

end World

/-! ## Records -/

/-- What comes about in a process and is counted: a call with its reply, and a wait that has
ended. -/
inductive Record (n : Nat)
  | call (op : Operation (Listener n)) (reply : Reply)
  | wait (outcome : WaitOutcome)

namespace Record

/-- What a record is counted as. -/
def tally : Record n → Counter → Nat
  | call op reply => Counter.ofCall op reply
  | wait outcome => Pi.single (Counter.ofWait outcome) 1

def isWait : Record n → Bool
  | wait _ => true
  | call _ _ => false

end Record

namespace World

/-- The records of a call: its own, and those of the calls that the listeners make. -/
def callRecords (w : World n) (c : Call n) : List (Record n) :=
  (turns (n + 1) w.dispatching w c).map fun x => .call x.call.2 x.reply

def happeningRecords (w : World n) : Happening n → List (Record n)
  | .call c => w.callRecords c
  | .wait m now after timeout token => (w.wait m now after timeout token).2.toList.map .wait
  | .waitAsync m after timeout => [.wait (w.waitAsync m after timeout).2]
  | _ => []

def courseRecords (w : World n) (happenings : List (Happening n)) : List (Record n) :=
  alongFold happen happeningRecords w happenings

theorem counts_call (w : World n) (c : Call n) :
    Counts ((w.callRecords c).map Record.tally).sum w (w.call c).1 := by
  rw [callRecords, List.map_map]
  exact counts_perform (n + 1) w.dispatching w c

theorem counts_happen (w : World n) (x : Happening n) :
    Counts ((w.happeningRecords x).map Record.tally).sum w (w.happen x) := by
  cases x with
  | call c => exact counts_call w c
  | wait m now after timeout token =>
      simp only [happeningRecords, happen, wait]
      split
      · next outcome _ =>
        rw [Option.toList_some, List.map_singleton, List.map_singleton, List.sum_singleton]
        exact counts_count (Metrics.raises_countWait outcome)
      · exact counts_aside rfl rfl
  | waitAsync m after timeout =>
      rw [happeningRecords, List.map_singleton, List.sum_singleton]
      exact counts_count (Metrics.raises_countWait _)
  | newToken | cancel | openInbox | drain | closeInbox => exact counts_aside rfl rfl

/-- What happens raises the counters by what it is recorded as. -/
theorem counts_course (w : World n) (happenings : List (Happening n)) :
    Counts ((w.courseRecords happenings).map Record.tally).sum w (w.course happenings) :=
  counts_alongFold counts_happen happenings w

end World

end SharedState
