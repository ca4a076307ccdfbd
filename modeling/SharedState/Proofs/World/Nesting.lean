import SharedState.Proofs.Store.Refusal
import SharedState.Proofs.World.Trace

/-!
# Calls inside calls

A call on a model that is telling its listeners is refused, however many other
models stand between, and every other call is performed as if nobody were
telling anything. Nothing of a refusal stays: the marks are taken away again
one by one as the listeners return.

What has to be said about a call has to be said about all the calls that it
brings about. `turns` collects them, each with the models whose listeners stand
above it, the innermost first. That these are the models that are marked is an
invariant of going down one level, since the listeners of a call find its model
marked on top of the others (`Trace.lean`). All else can be read off the marks,
one turn at a time.

A listener's calls are a function of the event alone. That is no restriction:
a model makes each event once, so whatever else a callback goes by when it
chooses its calls, some function of the event chooses the same.
-/

namespace SharedState

variable {n : Nat}

/-- What a listener is told. -/
def Telling.heard (t : Telling n) : Event × Listener n := (t.event, t.listener)

/-- Bytes that are submitted and are no document. -/
def Unreadable (op : Operation (Listener n)) : Prop :=
  ∃ bytes, op = .submit bytes ∧ Document.parse? bytes = none

/-- A call that came about, with the models whose listeners stand above it, the innermost
first, and with the listeners that it told itself. -/
structure Turn (n : Nat) where
  nest : List (Fin n)
  before : World n
  call : Call n
  told : List (Telling n)
  after : World n
  reply : Reply

namespace World

theorem unreadable_iff {op : Operation (Listener n)} :
    Unreadable op ↔ isSubmission (readDocument op) = true := by
  constructor
  · rintro ⟨bytes, rfl, hnone⟩
    simp only [readDocument, hnone, isSubmission]
  · intro h
    cases op with
    | submit bytes =>
        refine ⟨bytes, rfl, ?_⟩
        cases hdoc : Document.parse? bytes with
        | none => rfl
        | some doc => simp [readDocument, hdoc, isSubmission] at h
    | _ => simp [readDocument, isSubmission] at h

/-! ## An operation and its own model

What an operation answers, what it leaves of its own model and what it tells
the listeners depends on the model alone: not on the other models, not on who
is marked, and not on what the listeners do. -/

/-- What is seen of a result by those who look at one model. -/
def seen {α : Type} (m : Fin n) (result : World n × α) : Model n × α := (result.1[m], result.2)

section own

variable {call call' : World n → Call n → World n × Reply} {w w' : World n} {m : Fin n}

theorem change_seen (hc : RespectsMarks call) (hc' : RespectsMarks call') (hw : w'[m] = w[m])
    (result : Except Error (Store × Commit)) :
    seen m (change call' w' m result) = seen m (change call w m result) := by
  cases result with
  | error e => exact congrArg (·, Except.error e) hw
  | ok done =>
      have hown : (change call' w' m (.ok done)).1[m] = (change call w m (.ok done)).1[m] := by
        rw [change_getElem_self hc', change_getElem_self hc, hw]
      exact congrArg (·, Except.ok done.2.revision) hown

theorem dispatchTold_heard (event : Event) :
    (dispatchTold call m w event).map Telling.heard =
      (w[m].registry.audience event.kind).map (event, ·) := by
  rw [dispatchTold, map_alongFold (I := fun _ => True) (g := fun l => [(event, l)])
    (fun _ _ _ => trivial) (fun _ _ _ => rfl) trivial, List.map_eq_flatMap]

theorem changeTold_heard (hc : RespectsMarks call) (done : Store × Commit) :
    (changeTold call m w (.ok done)).map Telling.heard =
      done.2.events.flatMap fun e => (w[m].registry.audience e.kind).map (e, ·) := by
  refine map_alongFold (I := fun w' => w'[m] = w[m].committed done)
    (fun w' e hw' => (dispatch_getElem_self hc e w').trans hw') (fun w' e hw' => ?_)
    (replace_getElem_self ..)
  rw [dispatchTold_heard, hw']
  rfl

theorem changeTold_heard_congr (hc : RespectsMarks call) (hc' : RespectsMarks call')
    (hw : w'[m] = w[m]) (result : Except Error (Store × Commit)) :
    (changeTold call' m w' result).map Telling.heard =
      (changeTold call m w result).map Telling.heard := by
  cases result with
  | error e => rfl
  | ok done => rw [changeTold_heard hc', changeTold_heard hc, hw]

theorem applyUpdates_seen (hc : RespectsMarks call) (hc' : RespectsMarks call')
    (hw : w'[m] = w[m]) (report : Report) (updates : List (String × Value)) :
    seen m (applyUpdates call' m report w' updates) =
        seen m (applyUpdates call m report w updates) ∧
      (updatesTold call' m w' updates).map Telling.heard =
        (updatesTold call m w updates).map Telling.heard := by
  induction updates generalizing report w w' with
  | nil => exact ⟨congrArg (·, Except.ok report) hw, rfl⟩
  | cons u rest ih =>
      rw [applyUpdates, applyUpdates, updatesTold, updatesTold, hw]
      cases hu : w[m].store.update u.1 u.2 with
      | error e => exact ⟨congrArg (·, Except.error e) hw, rfl⟩
      | ok done =>
          have hfirst := congrArg Prod.fst (change_seen hc hc' hw (.ok done))
          obtain ⟨hseen, hheard⟩ := ih hfirst
            { report with applied := report.applied ++ [u.1], revision := done.2.revision }
          refine ⟨hseen, ?_⟩
          rw [List.map_append, List.map_append, changeTold_heard_congr hc hc' hw, hheard]

theorem planAndApply_seen (hc : RespectsMarks call) (hc' : RespectsMarks call')
    (hw : w'[m] = w[m]) (doc : Document) :
    seen m (planAndApply call' w' m doc) = seen m (planAndApply call w m doc) ∧
      (documentTold call' m w' doc).map Telling.heard =
        (documentTold call m w doc).map Telling.heard := by
  have hplanned : (w'.setStore m (w[m].store.afterPlanning doc))[m] =
      (w.setStore m (w[m].store.afterPlanning doc))[m] := by
    rw [setStore_getElem_self, setStore_getElem_self, hw]
  simp only [planAndApply, documentTold, hw]
  cases w[m].store.plan doc with
  | error e => exact ⟨congrArg (·, Except.error e) hplanned, rfl⟩
  | ok plan => exact applyUpdates_seen hc hc' hplanned _ plan.updates

theorem applyDocument_seen (w : World n) (doc : Document) :
    seen m (applyDocument call w m doc) =
      ((seen m (planAndApply call w m doc)).1,
        (seen m (planAndApply call w m doc)).2.map .report) := by
  rw [applyDocument]
  split <;> next hplan => rw [hplan]; rfl

theorem operate_seen (hc : RespectsMarks call) (hc' : RespectsMarks call')
    (hw : w'[m] = w[m]) (op : Operation (Listener n)) :
    seen m (operate call' w' m op) = seen m (operate call w m op) ∧
      (operationTold call' m w' op).map Telling.heard =
        (operationTold call m w op).map Telling.heard := by
  have hchange : ∀ result,
      seen m (replyRevision (change call' w' m result)) =
          seen m (replyRevision (change call w m result)) ∧
        (changeTold call' m w' result).map Telling.heard =
          (changeTold call m w result).map Telling.heard := by
    intro result
    have hseen := change_seen hc hc' hw result
    exact ⟨congrArg (fun r => (r.1, r.2.map Outcome.revision)) hseen,
      changeTold_heard_congr hc hc' hw result⟩
  cases op with
  | add | update | remove | annotate =>
      simp only [operate, operationTold, hw]
      exact hchange _
  | apply doc =>
      obtain ⟨hseen, hheard⟩ := planAndApply_seen hc hc' hw doc
      refine ⟨?_, hheard⟩
      rw [operate, operate, applyDocument_seen, applyDocument_seen, hseen]
  | look | submit | setLayout | schema | full | delta | register | unregister =>
      refine ⟨?_, rfl⟩
      simp only [seen, operate, modify_eq_replace, count_getElem, setStore_getElem_self,
        replace_getElem_self, hw]

/-! ## An operation is not refused for a mark -/

theorem change_namesKey {result : Except Error (Store × Commit)} (h : NamesKey result) :
    NamesKey (change call w m result).2 := by
  cases result with
  | error e => exact .error (h e rfl)
  | ok done => exact .ok _

theorem applyUpdates_namesKey (report : Report) (updates : List (String × Value)) (w : World n) :
    NamesKey (applyUpdates call m report w updates).2 := by
  induction updates generalizing report w with
  | nil => exact .ok report
  | cons u rest ih =>
      have hfirst : NamesKey (change call w m (w[m].store.update u.1 u.2)).2 :=
        change_namesKey (w[m].store.update_namesKey u.1 u.2)
      rw [applyUpdates]
      rcases hr : change call w m (w[m].store.update u.1 u.2) with ⟨w', e | r⟩
      · rw [hr] at hfirst
        exact .error (hfirst e rfl)
      · exact ih _ w'

theorem planAndApply_namesKey (w : World n) (doc : Document) :
    NamesKey (planAndApply call w m doc).2 := by
  simp only [planAndApply]
  split
  · next e hplan => exact .error (w[m].store.plan_namesKey doc e hplan)
  · exact applyUpdates_namesKey _ _ _

/-- An operation that is refused is refused for a key, or for bytes that are no document. -/
theorem operate_fails (op : Operation (Listener n)) (w : World n) :
    FailsOnly (fun error => error.key?.isSome ∨ error = .malformedDocument)
      (operate call w m op).2 := by
  have hreply : ∀ result, NamesKey result →
      FailsOnly (fun error => error.key?.isSome ∨ error = .malformedDocument)
        (replyRevision (change call w m result)).2 := by
    intro result h
    exact ((change_namesKey h).map Outcome.revision).mono fun _ => .inl
  cases op with
  | add spec => exact hreply _ (w[m].store.add_namesKey spec)
  | update key value => exact hreply _ (w[m].store.update_namesKey key value)
  | remove key => exact hreply _ (w[m].store.remove_namesKey key)
  | annotate key label => exact hreply _ (w[m].store.annotate_namesKey key label)
  | apply doc =>
      have happly : (applyDocument call w m doc).2 =
          (planAndApply call w m doc).2.map .report :=
        congrArg Prod.snd (applyDocument_seen w doc)
      rw [operate, happly]
      exact ((planAndApply_namesKey w doc).map Outcome.report).mono fun _ => .inl
  | submit bytes => exact .error (.inr rfl)
  | look | setLayout | schema | full | delta | register | unregister => exact .ok _

theorem operate_ne_reentrantAccess (op : Operation (Listener n)) (w : World n) :
    (operate call w m op).2 ≠ .error .reentrantAccess := by
  intro h
  have hfails := operate_fails op w _ h
  simp [Error.key?] at hfails

end own

/-! ## Turns -/

/-- The turns that come about when a call is performed under a nest of listeners: its own,
and those of the calls that the listeners told by it make. -/
def turns : Nat → List (Fin n) → World n → Call n → List (Turn n)
  | 0, nest, w, c => [⟨nest, w, c, [], w, .error .reentrantAccess⟩]
  | depth + 1, nest, w, c =>
    let told := toldBy (perform depth) w c
    let result := perform (depth + 1) w c
    ⟨nest, w, c, told, result.1, result.2⟩ :: told.flatMap fun t =>
      (t.asked (perform depth)).flatMap fun a => turns depth (c.1 :: nest) a.1 a.2

theorem mem_turns_succ {depth : Nat} {nest : List (Fin n)} {w : World n} {c : Call n}
    {x : Turn n} : x ∈ turns (depth + 1) nest w c ↔
      x = ⟨nest, w, c, toldBy (perform depth) w c, (perform (depth + 1) w c).1,
        (perform (depth + 1) w c).2⟩ ∨
      ∃ t ∈ toldBy (perform depth) w c, ∃ a ∈ t.asked (perform depth),
        x ∈ turns depth (c.1 :: nest) a.1 a.2 := by
  simp only [turns, List.mem_cons, List.mem_flatMap]

/-- The listeners that a call from outside tells. -/
def told (w : World n) (c : Call n) : List (Telling n) := toldBy (perform n) w c

end World

/-- A turn goes by the marks, and leaves them as it found them. -/
structure Turn.Orderly (x : Turn n) : Prop where
  /-- The marked models are those whose listeners stand above, each once. -/
  marked : x.before.dispatching = x.nest ∧ x.after.dispatching = x.nest ∧ x.nest.Nodup
  /-- The listeners that are told find the model of the call marked on top of these. -/
  found : ∀ t ∈ x.told, t.model = x.call.1 ∧ t.world.dispatching = x.call.1 :: x.nest ∧
    t.world.dispatching.Nodup ∧ t.world.dispatching.length ≤ n
  /-- The call is performed as it would be from outside, in the same world. -/
  performed : (x.after, x.reply) = x.before.call x.call
  refused : x.call.1 ∈ x.nest → ¬ Unreadable x.call.2 →
    x.told = [] ∧ x.after = x.before ∧ x.reply = .error .reentrantAccess
  unreadable : Unreadable x.call.2 →
    x.told = [] ∧ x.after = x.before.count (·.countUnreadable) ∧
      x.reply = .error .malformedDocument
  /-- On a model that is not marked it makes no difference that others are. -/
  free : x.call.1 ∉ x.nest → x.reply ≠ .error .reentrantAccess ∧
    ∀ outside : World n, outside.dispatching = [] →
      outside[x.call.1] = x.before[x.call.1] →
      (outside.call x.call).2 = x.reply ∧
        (outside.call x.call).1[x.call.1] = x.after[x.call.1] ∧
        (outside.told x.call).map Telling.heard = x.told.map Telling.heard

namespace World

theorem toldBy_of_unreadable (call : World n → Call n → World n × Reply) (w : World n)
    {c : Call n} (h : Unreadable c.2) : toldBy call w c = [] := by
  obtain ⟨bytes, hop, hnone⟩ := h
  have hread : readDocument c.2 = .submit bytes := by
    rw [hop, readDocument, hnone]
  rw [toldBy, hread]
  exact ite_self []

/-- What a call does first of all, before its listeners call anybody, is orderly. -/
theorem orderly_of_nodup {depth : Nat} {w : World n} (hmarks : w.dispatching.Nodup)
    (h : n < depth + 1 + w.dispatching.length) (c : Call n) :
    Turn.Orderly ⟨w.dispatching, w, c, toldBy (perform depth) w c,
      (perform (depth + 1) w c).1, (perform (depth + 1) w c).2⟩ where
  marked := ⟨rfl, (perform_respectsMarks (depth + 1)).dispatching w c, hmarks⟩
  found := by
    intro t ht
    obtain ⟨hfree, s, done, -, htells⟩ :=
      tellsCommit_of_mem_toldBy (perform_respectsMarks depth) ht
    have hnodup : t.world.dispatching.Nodup :=
      htells.marked ▸ List.nodup_cons.2 ⟨hfree, hmarks⟩
    exact ⟨htells.model, htells.marked, hnodup, length_le_of_nodup hnodup⟩
  performed := perform_eq_call hmarks h c
  refused := by
    intro hm hread
    have hs := Bool.eq_false_iff.2 fun hs => hread (unreadable_iff.2 hs)
    have hanswer : perform (depth + 1) w c = (w, .error .reentrantAccess) :=
      answer_of_marked hm hs
    exact ⟨toldBy_of_marked hm, congrArg Prod.fst hanswer, congrArg Prod.snd hanswer⟩
  unreadable := by
    intro hread
    have hanswer : perform (depth + 1) w c =
        (w.count (·.countUnreadable), .error .malformedDocument) :=
      answer_of_submission (unreadable_iff.1 hread)
    exact ⟨toldBy_of_unreadable _ w hread, congrArg Prod.fst hanswer, congrArg Prod.snd hanswer⟩
  free := by
    intro hm
    have hanswer : perform (depth + 1) w c = operate (perform depth) w c.1 (readDocument c.2) :=
      answer_of_free hm
    refine ⟨hanswer ▸ operate_ne_reentrantAccess _ w, ?_⟩
    intro outside hnone hown
    have hm' : c.1 ∉ outside.dispatching := hnone ▸ List.not_mem_nil
    have houtside : outside.call c = operate (perform n) outside c.1 (readDocument c.2) :=
      answer_of_free hm'
    obtain ⟨hseen, hheard⟩ := operate_seen (perform_respectsMarks depth)
      (perform_respectsMarks n) hown (readDocument c.2)
    rw [← houtside, ← hanswer] at hseen
    obtain ⟨hleft, hreply⟩ := Prod.ext_iff.1 hseen
    refine ⟨hreply, hleft, ?_⟩
    rw [told, toldBy_of_free hm, toldBy_of_free hm']
    exact hheard

/-- What the first turn is, all turns under it are. -/
theorem turns_orderly {depth : Nat} {w : World n} (hmarks : w.dispatching.Nodup)
    (h : n < depth + w.dispatching.length) (c : Call n) :
    ∀ x ∈ turns depth w.dispatching w c, x.Orderly := by
  have hlength := length_le_of_nodup hmarks
  induction depth generalizing w c with
  | zero => omega
  | succ depth ih =>
      intro x hx
      rcases mem_turns_succ.1 hx with rfl | ⟨t, ht, a, ha, hx⟩
      · exact orderly_of_nodup hmarks h c
      · obtain ⟨hnest, hnodup⟩ := marks_of_mem_asked (perform_respectsMarks depth) hmarks ht ha
        have hlonger : a.1.dispatching.length = w.dispatching.length + 1 := by
          rw [hnest, List.length_cons]
        rw [← hnest] at hx
        exact ih hnodup (by omega) a.2 (length_le_of_nodup hnodup) x hx

theorem run_dispatching (w : World n) (calls : List (Call n)) :
    (w.run calls).dispatching = w.dispatching := by
  induction calls generalizing w with
  | nil => rfl
  | cons c rest ih => exact (ih _).trans ((perform_respectsMarks (n + 1)).dispatching w c)

/-- After any calls, those from outside included that failed, the marks are what they were.
The next call is refused for a mark exactly if its model is marked, unless it submits bytes
that are no document. Whatever calls it brings about go by the marks in the same way, and
none of them is cut off because there were too few levels. -/
theorem marked_models_refuse {w : World n} (hmarks : w.dispatching.Nodup)
    (calls : List (Call n)) (c : Call n) :
    let w' := w.run calls
    w'.dispatching = w.dispatching ∧
      (∀ x ∈ turns (n + 1) w.dispatching w' c, x.Orderly) ∧
      (∀ depth, n < depth → perform depth w' c = w'.call c) ∧
      ((w'.call c).2 = .error .reentrantAccess ↔ c.1 ∈ w.dispatching ∧ ¬ Unreadable c.2) := by
  intro w'
  have hrun : w'.dispatching = w.dispatching := run_dispatching w calls
  have hmarks' : w'.dispatching.Nodup := hrun ▸ hmarks
  have horderly : ∀ x ∈ turns (n + 1) w'.dispatching w' c, x.Orderly :=
    turns_orderly hmarks' (by omega) c
  refine ⟨hrun, hrun ▸ horderly, fun depth h => perform_eq_call hmarks' (by omega) c, ?_⟩
  have hfirst := horderly _ List.mem_cons_self
  rw [← hrun]
  constructor
  · intro hreply
    by_cases hm : c.1 ∈ w'.dispatching
    · refine ⟨hm, fun hread => ?_⟩
      obtain ⟨-, -, hmalformed⟩ := hfirst.unreadable hread
      cases hreply.symm.trans hmalformed
    · exact absurd hreply (hfirst.free hm).1
  · rintro ⟨hm, hread⟩
    exact (hfirst.refused hm hread).2.2

/-- The error of a reply that is one. -/
def refusal? : Reply → Option Error
  | .ok _ => none
  | .error e => some e

/-- The models of a world of two. -/
def outer : Fin 2 := ⟨0, Nat.zero_lt_two⟩

def inner : Fin 2 := .last 1

/-- Two models with an element each. A listener of the outer one updates the inner one and
then looks at it; a listener of the inner one calls back into both. -/
def chained : World 2 :=
  (start (.replicate 2 .ignore)).run
    [(outer, .add { key := "gain", value := .integer 1 }),
     (inner, .add { key := "mode", value := .boolean true }),
     (outer, .register (.mk .all
       (fun _ => [(inner, .update "mode" (.boolean false)), (inner, .look)]) none)),
     (inner, .register (.mk .all
       (fun _ => [(outer, .look), (outer, .submit ⟨#[0]⟩), (inner, .remove "mode")]) none))]

theorem marked_models_refuse_chained :
    let c : Call 2 := (outer, .update "gain" (.integer 2))
    (turns 3 [] chained c).map (fun x => (x.nest, x.call.1, refusal? x.reply)) =
        [([], outer, none), ([outer], inner, none),
         ([inner, outer], outer, some .reentrantAccess),
         ([inner, outer], outer, some .malformedDocument),
         ([inner, outer], inner, some .reentrantAccess), ([outer], inner, none)] ∧
      (∀ x ∈ turns 3 [] chained c, x.call.1 ∈ x.nest → x.after.models = x.before.models) ∧
      ((chained.run [c]).call c).2 ≠ .error .reentrantAccess := by
  intro c
  have hnone : chained.dispatching = [] := run_dispatching _ _
  have hmarks : chained.dispatching.Nodup := hnone ▸ List.nodup_nil
  obtain ⟨-, horderly, -, -⟩ := marked_models_refuse hmarks [] c
  obtain ⟨-, -, -, hnext⟩ := marked_models_refuse hmarks [c] c
  rw [hnone] at horderly hnext
  refine ⟨by with_unfolding_all decide, ?_, fun h => List.not_mem_nil (hnext.1 h).1⟩
  intro x hx hm
  by_cases hread : Unreadable x.call.2
  · obtain ⟨-, hafter, -⟩ := (horderly x hx).unreadable hread
    rw [hafter]
    rfl
  · obtain ⟨-, hafter, -⟩ := (horderly x hx).refused hm hread
    rw [hafter]

end World

end SharedState
