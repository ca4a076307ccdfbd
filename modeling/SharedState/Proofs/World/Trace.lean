import Mathlib.Data.Fintype.Card
import SharedState.Proofs.World.Frame

/-!
# Whom a call tells

The interpreter returns the world that a call leaves, and not what went on
meanwhile. The functions here walk the same way and collect the tellings: each
listener that is told, with the event and the world that it finds. From a
telling follow the calls that the listener makes, each with the world in which
it is made.

That nothing is left out is the congruence at the end of the first part: if two
performers of the calls of listeners agree on the calls collected here, then an
operation comes to the same with either. That each telling is what it should be
is the second part: the listener belongs to the model of the call, which is
marked then on top of the marks that there were and already shows the commit
that it tells of.

Together they bound the depth of calls inside calls. A level marks one more
model, and no model is marked twice; so once the levels and the marks together
are more than the models, the calls at the bottom are never made, and the
answer does not depend on the number of levels.
-/

namespace SharedState

/-- What is seen along a fold, looking at every state before its step. -/
def alongFold {σ α β : Type} (step : σ → α → σ) (look : σ → α → List β) : σ → List α → List β
  | _, [] => []
  | s, a :: rest => look s a ++ alongFold step look (step s a) rest

section alongFold

variable {σ α β γ : Type} {step step' : σ → α → σ} {look : σ → α → List β} {s : σ}
  {l : List α}

theorem mem_alongFold {I : σ → Prop} {b : β} (h : b ∈ alongFold step look s l)
    (hstep : ∀ s a, I s → I (step s a)) (hs : I s) : ∃ s', I s' ∧ ∃ a ∈ l, b ∈ look s' a := by
  induction l generalizing s with
  | nil => cases h
  | cons a rest ih =>
      rcases List.mem_append.1 h with h | h
      · exact ⟨s, hs, a, List.mem_cons_self, h⟩
      · obtain ⟨s', hs', a', ha', hb⟩ := ih h (hstep s a hs)
        exact ⟨s', hs', a', List.mem_cons_of_mem a ha', hb⟩

/-- Steps that agree wherever all that is seen has a property fold to the same,
if all that is seen along the fold has it. -/
theorem foldl_congr_of_alongFold {P : β → Prop}
    (hstep : ∀ s a, (∀ b ∈ look s a, P b) → step' s a = step s a)
    (h : ∀ b ∈ alongFold step look s l, P b) : l.foldl step' s = l.foldl step s := by
  induction l generalizing s with
  | nil => rfl
  | cons a rest ih =>
      have hfirst := hstep s a fun b hb => h b (List.mem_append_left _ hb)
      rw [List.foldl_cons, List.foldl_cons, hfirst]
      exact ih fun b hb => h b (List.mem_append_right _ hb)

theorem map_alongFold {I : σ → Prop} (hstep : ∀ s a, I s → I (step s a)) {f : β → γ}
    {g : α → List γ} (hlook : ∀ s a, I s → (look s a).map f = g a) (hs : I s) :
    (alongFold step look s l).map f = l.flatMap g := by
  induction l generalizing s with
  | nil => rfl
  | cons a rest ih =>
      rw [alongFold, List.map_append, hlook s a hs, ih (hstep s a hs), List.flatMap_cons]

end alongFold

/-- A listener of a model that is told of an event, and the world that it finds. -/
structure Telling (n : Nat) where
  model : Fin n
  event : Event
  listener : Listener n
  world : World n

variable {n : Nat}

/-- The calls that the listener makes, each with the world in which it is made. -/
def Telling.asked (call : World n → Call n → World n × Reply) (t : Telling n) :
    List (World n × Call n) :=
  alongFold (fun w c => (call w c).1) (fun w c => [(w, c)]) t.world (t.listener.calls t.event)

namespace World

/-! ## The tellings of a call

Each function collects what the function of the interpreter that it is named
after does, without the calls that the listeners make in turn. -/

section told

variable (call : World n → Call n → World n × Reply) (m : Fin n)

def dispatchTold (w : World n) (event : Event) : List (Telling n) :=
  alongFold (tell call m event) (fun w listener => [⟨m, event, listener, w⟩]) (w.mark m)
    (w[m].registry.audience event.kind)

def changeTold (w : World n) : Except Error (Store × Commit) → List (Telling n)
  | .ok done =>
    alongFold (dispatch call m) (dispatchTold call m) (w.publish m done.1 done.2) done.2.events
  | .error _ => []

def updatesTold : World n → List (String × Value) → List (Telling n)
  | _, [] => []
  | w, u :: rest =>
    match w[m].store.update u.1 u.2 with
    | .ok done =>
      changeTold call m w (.ok done) ++ updatesTold (change call w m (.ok done)).1 rest
    | .error _ => []

def documentTold (w : World n) (doc : Document) : List (Telling n) :=
  match w[m].store.plan doc with
  | .ok plan => updatesTold call m (w.setStore m (w[m].store.afterPlanning doc)) plan.updates
  | .error _ => []

def operationTold (w : World n) : Operation (Listener n) → List (Telling n)
  | .add spec => changeTold call m w (w[m].store.add spec)
  | .update key value => changeTold call m w (w[m].store.update key value)
  | .remove key => changeTold call m w (w[m].store.remove key)
  | .annotate key label => changeTold call m w (w[m].store.annotate key label)
  | .apply doc => documentTold call m w doc
  | _ => []

end told

/-- The listeners that a call tells, those that its listeners make others tell apart. -/
def toldBy (call : World n → Call n → World n × Reply) (w : World n) (c : Call n) :
    List (Telling n) :=
  if w.dispatching.contains c.1 then [] else operationTold call c.1 w (readDocument c.2)

theorem toldBy_of_marked {call : World n → Call n → World n × Reply} {w : World n} {c : Call n}
    (hm : c.1 ∈ w.dispatching) : toldBy call w c = [] :=
  if_pos (List.contains_iff_mem.2 hm)

theorem toldBy_of_free {call : World n → Call n → World n × Reply} {w : World n} {c : Call n}
    (hm : c.1 ∉ w.dispatching) :
    toldBy call w c = operationTold call c.1 w (readDocument c.2) :=
  if_neg fun h => hm (List.contains_iff_mem.1 h)

/-! ## Nothing else is called -/

/-- Two performers agree on all calls that a told listener makes. -/
def SameFor (call call' : World n → Call n → World n × Reply) (t : Telling n) : Prop :=
  ∀ a ∈ t.asked call, call' a.1 a.2 = call a.1 a.2

section congr

variable {call call' : World n → Call n → World n × Reply} {w : World n} {m : Fin n}

theorem callAll_congr {calls : List (Call n)}
    (h : ∀ a ∈ alongFold (fun w c => (call w c).1) (fun w c => [(w, c)]) w calls,
      call' a.1 a.2 = call a.1 a.2) :
    callAll call' w calls = callAll call w calls := by
  induction calls generalizing w with
  | nil => rfl
  | cons c rest ih =>
      have hfirst : call' w c = call w c := h (w, c) List.mem_cons_self
      have hrest := ih fun a ha => h a (List.mem_cons_of_mem (w, c) ha)
      simp only [callAll, hfirst, hrest]

theorem tell_congr {event : Event} {listener : Listener n}
    (h : SameFor call call' ⟨m, event, listener, w⟩) :
    tell call' m event w listener = tell call m event w listener := by
  rw [tell, tell, callAll_congr h]

theorem dispatch_congr {event : Event}
    (h : ∀ t ∈ dispatchTold call m w event, SameFor call call' t) :
    dispatch call' m w event = dispatch call m w event := by
  have htell : ∀ (w : World n) (listener : Listener n),
      (∀ t ∈ [(⟨m, event, listener, w⟩ : Telling n)], SameFor call call' t) →
        tell call' m event w listener = tell call m event w listener :=
    fun _ _ ht => tell_congr (ht _ List.mem_cons_self)
  rw [dispatch_eq, dispatch_eq, foldl_congr_of_alongFold htell h]

theorem change_congr {result : Except Error (Store × Commit)}
    (h : ∀ t ∈ changeTold call m w result, SameFor call call' t) :
    change call' w m result = change call w m result := by
  cases result with
  | error e => rfl
  | ok done =>
      have hfold := foldl_congr_of_alongFold (fun _ _ => dispatch_congr) h
      simp only [change, commit_eq, hfold]

theorem applyUpdates_congr {report : Report} {updates : List (String × Value)}
    (h : ∀ t ∈ updatesTold call m w updates, SameFor call call' t) :
    applyUpdates call' m report w updates = applyUpdates call m report w updates := by
  induction updates generalizing report w with
  | nil => rfl
  | cons u rest ih =>
      rw [updatesTold] at h
      rw [applyUpdates, applyUpdates]
      cases hu : w[m].store.update u.1 u.2 with
      | error e => rfl
      | ok done =>
          rw [hu] at h
          have hfirst : change call' w m (.ok done) = change call w m (.ok done) :=
            change_congr fun t ht => h t (List.mem_append_left _ ht)
          rw [hfirst]
          exact ih fun t ht => h t (List.mem_append_right _ ht)

theorem applyDocument_congr {doc : Document}
    (h : ∀ t ∈ documentTold call m w doc, SameFor call call' t) :
    applyDocument call' w m doc = applyDocument call w m doc := by
  unfold documentTold at h
  have hplan : planAndApply call' w m doc = planAndApply call w m doc := by
    simp only [planAndApply]
    cases hp : w[m].store.plan doc with
    | error e => rfl
    | ok plan =>
        rw [hp] at h
        exact applyUpdates_congr h
  rw [applyDocument, applyDocument, hplan]

theorem operate_congr {op : Operation (Listener n)}
    (h : ∀ t ∈ operationTold call m w op, SameFor call call' t) :
    operate call' w m op = operate call w m op := by
  cases op with
  | add | update | remove | annotate => exact congrArg replyRevision (change_congr h)
  | apply doc => exact applyDocument_congr h
  | look | submit | setLayout | schema | full | delta | register | unregister => rfl

theorem answer_congr {c : Call n} (h : ∀ t ∈ toldBy call w c, SameFor call call' t) :
    answer call' w c = answer call w c := by
  by_cases hs : isSubmission (readDocument c.2) = true
  · rw [answer_of_submission hs, answer_of_submission hs]
  · by_cases hm : c.1 ∈ w.dispatching
    · have hs' := Bool.eq_false_iff.2 hs
      rw [answer_of_marked hm hs', answer_of_marked hm hs']
    · rw [toldBy_of_free hm] at h
      rw [answer_of_free hm, answer_of_free hm, operate_congr h]

end congr

/-! ## What the told listeners find -/

/-- The listener is told of a commit that has just been made on a model. The model shows
it, and is marked on top of the marks that there were. -/
structure TellsCommit (t : Telling n) (m : Fin n) (done : Store × Commit) (marks : List (Fin n)) :
    Prop where
  model : t.model = m
  event : t.event ∈ done.2.events
  marked : t.world.dispatching = m :: marks
  store : t.world[m].store = done.1
  watch : t.world[m].watch = .start done.2.revision

section found

variable {call : World n → Call n → World n × Reply} {w : World n} {m : Fin n} {t : Telling n}

theorem of_mem_dispatchTold (hc : RespectsMarks call) {event : Event}
    (h : t ∈ dispatchTold call m w event) :
    t.model = m ∧ t.event = event ∧ t.world.dispatching = m :: w.dispatching ∧
      t.world[m] = w[m] := by
  have hstep : ∀ (w' : World n) (listener : Listener n),
      w'.dispatching = m :: w.dispatching ∧ w'[m] = w[m] →
        (tell call m event w' listener).dispatching = m :: w.dispatching ∧
          (tell call m event w' listener)[m] = w[m] := by
    rintro w' listener ⟨hmarks, hown⟩
    have hm : m ∈ w'.dispatching := hmarks ▸ List.mem_cons_self
    exact ⟨(tell_dispatching hc event w' listener).trans hmarks,
      (tell_getElem_self hc event listener hm).trans hown⟩
  obtain ⟨w', hw', listener, -, ht⟩ := mem_alongFold h hstep ⟨rfl, rfl⟩
  cases List.mem_singleton.1 ht
  exact ⟨rfl, rfl, hw'⟩

theorem tellsCommit_of_mem_changeTold (hc : RespectsMarks call) {done : Store × Commit}
    (h : t ∈ changeTold call m w (.ok done)) : TellsCommit t m done w.dispatching := by
  have hstep : ∀ (w' : World n) (event : Event),
      w'.dispatching = w.dispatching ∧ w'[m] = w[m].committed done →
        (dispatch call m w' event).dispatching = w.dispatching ∧
          (dispatch call m w' event)[m] = w[m].committed done := by
    rintro w' event ⟨hmarks, hown⟩
    exact ⟨(dispatch_dispatching hc event w').trans hmarks,
      (dispatch_getElem_self hc event w').trans hown⟩
  obtain ⟨w', ⟨hmarks, hown⟩, event, hevent, ht⟩ :=
    mem_alongFold h hstep ⟨rfl, replace_getElem_self ..⟩
  obtain ⟨hmodel, rfl, hmarked, hfound⟩ := of_mem_dispatchTold hc ht
  rw [hmarks] at hmarked
  rw [hown] at hfound
  exact ⟨hmodel, hevent, hmarked, by rw [hfound]; rfl, by rw [hfound]; rfl⟩

theorem of_mem_updatesTold {I : World n → Prop}
    (hchange : ∀ {w'} done, I w' → w'[m].store.Step done → I (change call w' m (.ok done)).1)
    (hw : I w) {updates : List (String × Value)} (h : t ∈ updatesTold call m w updates) :
    ∃ w' done, I w' ∧ w'[m].store.Step done ∧ t ∈ changeTold call m w' (.ok done) := by
  induction updates generalizing w with
  | nil => cases h
  | cons u rest ih =>
      rw [updatesTold] at h
      cases hu : w[m].store.update u.1 u.2 with
      | error e =>
          rw [hu] at h
          cases h
      | ok done =>
          rw [hu] at h
          rcases List.mem_append.1 h with h | h
          · exact ⟨w, done, hw, .update hu, h⟩
          · exact ih (hchange done hw (.update hu)) h

/-- Whoever is told by a call is told of a change of its model, which was not marked. What
planning and changes keep up still holds when the change is made. -/
theorem of_mem_toldBy {I : World n → Prop} {c : Call n}
    (hplan : ∀ doc, I w → I (w.setStore c.1 (w[c.1].store.afterPlanning doc)))
    (hchange : ∀ {w'} done, I w' → w'[c.1].store.Step done →
      I (change call w' c.1 (.ok done)).1)
    (hw : I w) (h : t ∈ toldBy call w c) :
    c.1 ∉ w.dispatching ∧
      ∃ w' done, I w' ∧ w'[c.1].store.Step done ∧ t ∈ changeTold call c.1 w' (.ok done) := by
  by_cases hm : c.1 ∈ w.dispatching
  · rw [toldBy_of_marked hm] at h
    cases h
  · rw [toldBy_of_free hm] at h
    refine ⟨hm, ?_⟩
    have hresult : ∀ result : Except Error (Store × Commit),
        (∀ done, result = .ok done → w[c.1].store.Step done) →
          t ∈ changeTold call c.1 w result →
            ∃ w' done, I w' ∧ w'[c.1].store.Step done ∧
              t ∈ changeTold call c.1 w' (.ok done) := by
      intro result hstep ht
      cases result with
      | error e => cases ht
      | ok done => exact ⟨w, done, hw, hstep done rfl, ht⟩
    cases hop : readDocument c.2 with
    | add spec => exact hresult _ (fun _ hd => .add hd) (hop ▸ h)
    | update key value => exact hresult _ (fun _ hd => .update hd) (hop ▸ h)
    | remove key => exact hresult _ (fun _ hd => .remove hd) (hop ▸ h)
    | annotate key label => exact hresult _ (fun _ hd => .annotate hd) (hop ▸ h)
    | apply doc =>
        rw [hop, operationTold, documentTold] at h
        split at h
        · exact of_mem_updatesTold hchange (hplan doc hw) h
        · cases h
    | _ =>
        rw [hop] at h
        cases h

/-- Whoever is told is told of a commit on the model of the call. -/
theorem tellsCommit_of_mem_toldBy (hc : RespectsMarks call) {c : Call n}
    (h : t ∈ toldBy call w c) :
    c.1 ∉ w.dispatching ∧
      ∃ s done, Store.Step s done ∧ TellsCommit t c.1 done w.dispatching := by
  obtain ⟨hfree, w', done, hmarks, hstep, ht⟩ :=
    of_mem_toldBy (I := fun w' => w'.dispatching = w.dispatching) (fun _ h => h)
      (fun done h _ => (change_dispatching hc _ (.ok done)).trans h) rfl h
  exact ⟨hfree, _, done, hstep, hmarks ▸ tellsCommit_of_mem_changeTold hc ht⟩

theorem of_mem_asked {I : World n → Prop} (hcall : ∀ w c, I w → I (call w c).1)
    (hw : I t.world) {a : World n × Call n} (h : a ∈ t.asked call) : I a.1 := by
  obtain ⟨w', hw', c, -, ha⟩ := mem_alongFold h hcall hw
  cases List.mem_singleton.1 ha
  exact hw'

theorem dispatching_of_mem_asked (hc : RespectsMarks call) {a : World n × Call n}
    (h : a ∈ t.asked call) : a.1.dispatching = t.world.dispatching :=
  of_mem_asked (I := fun w => w.dispatching = t.world.dispatching)
    (fun w c hw => (hc.dispatching w c).trans hw) rfl h

/-- The calls that a told listener makes are made under one mark more. -/
theorem marks_of_mem_asked (hc : RespectsMarks call) (hmarks : w.dispatching.Nodup) {c : Call n}
    (ht : t ∈ toldBy call w c) {a : World n × Call n} (ha : a ∈ t.asked call) :
    a.1.dispatching = c.1 :: w.dispatching ∧ a.1.dispatching.Nodup := by
  obtain ⟨hfree, s, done, -, htells⟩ := tellsCommit_of_mem_toldBy hc ht
  have hnest : a.1.dispatching = c.1 :: w.dispatching :=
    (dispatching_of_mem_asked hc ha).trans htells.marked
  exact ⟨hnest, hnest ▸ List.nodup_cons.2 ⟨hfree, hmarks⟩⟩

end found

/-! ## On the way

The worlds that turn up on the way keep to what calls keep to. -/

section frame

variable {call : World n → Call n → World n × Reply} {w : World n} {m : Fin n} {t : Telling n}
  {R : World n → World n → Prop}

theorem frame_of_mem_changeTold (hR : Frame R m) (hc : ∀ w c, R w (call w c).1)
    {done : Store × Commit} (hstep : w[m].store.Step done)
    (h : t ∈ changeTold call m w (.ok done)) : R w t.world := by
  have hpublish : R w (w.publish m done.1 done.2) :=
    hR.trans (hR.own (.step hstep)) (hR.aside rfl rfl)
  obtain ⟨w', hw', event, -, h⟩ := mem_alongFold (I := R w) h
    (fun w' event hw' => hR.trans hw' (frame_dispatch hR hc w' event)) hpublish
  obtain ⟨w'', hw'', listener, -, h⟩ := mem_alongFold (I := R w) h
    (fun w' listener hw' => hR.trans hw' (frame_tell hR hc event w' listener))
    (hR.trans hw' (hR.aside rfl rfl))
  cases List.mem_singleton.1 h
  exact hw''

theorem frame_of_mem_toldBy {c : Call n} (hR : Frame R c.1) (hc : ∀ w c, R w (call w c).1)
    (h : t ∈ toldBy call w c) : R w t.world := by
  obtain ⟨-, w', done, hw', hstep, ht⟩ := of_mem_toldBy (I := R w)
    (fun doc hw => hR.trans hw (hR.own (Model.Evolves.refl.afterPlanning doc)))
    (fun done hw hstep => hR.trans hw (frame_change hR hc fun _ hd => Except.ok.inj hd ▸ hstep))
    (hR.aside rfl rfl) h
  exact hR.trans hw' (frame_of_mem_changeTold hR hc hstep ht)

theorem frame_of_mem_asked (hR : Frame R m) (hc : ∀ w c, R w (call w c).1)
    {a : World n × Call n} (h : a ∈ t.asked call) : R t.world a.1 :=
  of_mem_asked (fun w c hw => hR.trans hw (hc w c)) (hR.aside rfl rfl) h

end frame

/-! ## The number of levels -/

theorem length_le_of_nodup {marks : List (Fin n)} (h : marks.Nodup) : marks.length ≤ n := by
  have hcard := h.length_le_card
  rwa [Fintype.card_fin] at hcard

/-- Once the levels and the marks are more than the models, the answer to a call does not
depend on the number of levels. -/
theorem perform_stable {depth depth' : Nat} {w : World n} (hmarks : w.dispatching.Nodup)
    (h : n < depth + w.dispatching.length) (h' : n < depth' + w.dispatching.length)
    (c : Call n) : perform depth w c = perform depth' w c := by
  have hlength := length_le_of_nodup hmarks
  induction depth generalizing depth' w c with
  | zero => omega
  | succ depth ih =>
      cases depth' with
      | zero => omega
      | succ depth' =>
          refine (answer_congr fun t ht a ha => ?_).symm
          obtain ⟨hnest, hnodup⟩ := marks_of_mem_asked (perform_respectsMarks depth) hmarks ht ha
          have hlonger : a.1.dispatching.length = w.dispatching.length + 1 := by
            rw [hnest, List.length_cons]
          exact (ih hnodup (by omega) (by omega) a.2 (length_le_of_nodup hnodup)).symm

/-- At any level a call is performed as it is from outside. -/
theorem perform_eq_call {depth : Nat} {w : World n} (hmarks : w.dispatching.Nodup)
    (h : n < depth + w.dispatching.length) (c : Call n) : perform depth w c = w.call c :=
  perform_stable hmarks h (by omega) c

end World

end SharedState
