import SharedState.World.Perform

/-!
# A marked model is left alone

While a model tells its listeners of an event it is marked, and every call
that a listener makes to it is refused. So whatever the listeners do
elsewhere, the model that they are told about does not change under them, and
nothing that they do depends on it.

Both halves are one statement: performing a call commutes with putting another
model in the place of a marked one. Put the model itself in its place, and the
statement says that the model is as it was; put a different one there, and it
says that replies, notices and the other models do not depend on it. The
interpreter is a tower of small functions over the performer of the calls of
listeners, and the statement is carried up the tower one function at a time,
together with the fact that every function leaves the marks as it found them:
without that, a mark could be lost between two calls of one listener.

What comes out at the top are equations for the model whose listeners are told
and for what a call answers. No later proof opens the dispatch again.
-/

namespace SharedState

namespace World

variable {n : Nat}

/-- The world with another model in the place of one. -/
def replace (w : World n) (m : Fin n) (model : Model n) : World n :=
  w.modify m fun _ => model

section replace

variable (w : World n) (m i : Fin n) (a b : Model n)

@[simp] theorem replace_getElem_self : (w.replace m a)[m] = a :=
  Vector.getElem_set_self m.isLt

theorem replace_getElem_of_ne {w : World n} {m i : Fin n} {a : Model n} (h : i ≠ m) :
    (w.replace m a)[i] = w[i] :=
  Vector.getElem_set_ne m.isLt i.isLt fun heq => h (Fin.ext heq.symm)

@[simp] theorem replace_dispatching : (w.replace m a).dispatching = w.dispatching := rfl

@[simp] theorem replace_replace : (w.replace m a).replace m b = w.replace m b := by
  simp only [replace, modify, Vector.set_set]

@[simp] theorem replace_getElem : w.replace m w[m] = w := by
  show { w with models := w.models.set m w[m] } = w
  rw [show w.models.set m w[m] = w.models from Vector.set_getElem_self m.isLt]

theorem replace_comm {w : World n} {m i : Fin n} {a b : Model n} (h : i ≠ m) :
    (w.replace m a).replace i b = (w.replace i b).replace m a := by
  simp only [replace, modify]
  rw [Vector.set_comm a b fun heq => h (Fin.ext heq.symm)]

@[simp] theorem count_getElem (f : Metrics → Metrics) : (w.count f)[m] = w[m] := rfl

theorem count_replace (f : Metrics → Metrics) :
    (w.replace m a).count f = (w.count f).replace m a := rfl

theorem modify_eq_replace (f : Model n → Model n) :
    w.modify m f = w.replace m (f w[m]) := rfl

end replace

/-- The world while a model is marked. -/
def mark (w : World n) (i : Fin n) : World n :=
  { w with dispatching := i :: w.dispatching }

/-- The world after one mark of a model is taken away. -/
def unmark (w : World n) (i : Fin n) : World n :=
  { w with dispatching := w.dispatching.erase i }

theorem unmark_dispatching (w : World n) (i : Fin n) :
    (w.unmark i).dispatching = w.dispatching.erase i := rfl

theorem mark_replace (w : World n) (i m : Fin n) (a : Model n) :
    (w.replace m a).mark i = (w.mark i).replace m a := rfl

theorem unmark_replace (w : World n) (i m : Fin n) (a : Model n) :
    (w.replace m a).unmark i = (w.unmark i).replace m a := rfl

/-- Performing calls leaves the marks as they are, and neither changes a
marked model nor depends on it. -/
structure RespectsMarks (call : World n → Call n → World n × Reply) : Prop where
  dispatching : ∀ w c, (call w c).1.dispatching = w.dispatching
  replace : ∀ {w : World n} {c m} (a : Model n), m ∈ w.dispatching →
    call (w.replace m a) c = ((call w c).1.replace m a, (call w c).2)

/-! ## Up the tower

Below an operation on a model `i`, every function looks at `i`, so the marked
model `m` of each statement is another one. -/

section tower

variable {call : World n → Call n → World n × Reply} {w : World n} {i m : Fin n}

theorem callAll_dispatching (hc : RespectsMarks call) (calls : List (Call n)) (w : World n) :
    (callAll call w calls).1.dispatching = w.dispatching := by
  induction calls generalizing w with
  | nil => rfl
  | cons c rest ih => exact (ih _).trans (hc.dispatching w c)

theorem callAll_replace (hc : RespectsMarks call) (calls : List (Call n)) {w : World n}
    (a : Model n) (hm : m ∈ w.dispatching) :
    callAll call (w.replace m a) calls =
      ((callAll call w calls).1.replace m a, (callAll call w calls).2) := by
  induction calls generalizing w with
  | nil => rfl
  | cons c rest ih =>
      have hm' : m ∈ (call w c).1.dispatching := (hc.dispatching w c).symm ▸ hm
      simp only [callAll, hc.replace a hm, ih hm']

@[simp] theorem post_dispatching (inbox : Option Nat) (notice : Notice) :
    (w.post inbox notice).dispatching = w.dispatching := by
  cases inbox <;> rfl

@[simp] theorem post_getElem (inbox : Option Nat) (notice : Notice) :
    (w.post inbox notice)[i] = w[i] := by
  cases inbox <;> rfl

theorem post_replace (a : Model n) (inbox : Option Nat) (notice : Notice) :
    (w.replace m a).post inbox notice = (w.post inbox notice).replace m a := by
  cases inbox <;> rfl

theorem currentRevision_replace (a : Model n) (h : m ≠ i) :
    (w.replace m a).currentRevision i = w.currentRevision i := by
  rw [currentRevision, currentRevision, replace_getElem_of_ne h.symm]

theorem tell_dispatching (hc : RespectsMarks call) (event : Event) (w : World n)
    (listener : Listener n) :
    (tell call i event w listener).dispatching = w.dispatching := by
  simp only [tell, post_dispatching, callAll_dispatching hc]

theorem tell_replace (hc : RespectsMarks call) (event : Event) (listener : Listener n)
    {w : World n} (a : Model n) (hm : m ∈ w.dispatching) (h : m ≠ i) :
    tell call i event (w.replace m a) listener = (tell call i event w listener).replace m a := by
  simp only [tell, callAll_replace hc _ a hm, currentRevision_replace a h, post_replace]

/-- The listeners of a marked model leave it alone, too: all that they are
told of it was looked up before. -/
theorem tell_getElem_self (hc : RespectsMarks call) (event : Event) (listener : Listener n)
    {w : World n} (hi : i ∈ w.dispatching) :
    (tell call i event w listener)[i] = w[i] := by
  have h := callAll_replace hc (listener.calls event) w[i] hi
  rw [replace_getElem] at h
  calc (tell call i event w listener)[i]
      = (callAll call w (listener.calls event)).1[i] := by simp only [tell, post_getElem]
    _ = ((callAll call w (listener.calls event)).1.replace i w[i])[i] :=
        congrArg (fun p => p.1[i]) h
    _ = w[i] := replace_getElem_self ..

theorem foldl_tell_dispatching (hc : RespectsMarks call) (event : Event)
    (listeners : List (Listener n)) (w : World n) :
    (listeners.foldl (tell call i event) w).dispatching = w.dispatching := by
  induction listeners generalizing w with
  | nil => rfl
  | cons l rest ih => exact (ih _).trans (tell_dispatching hc event w l)

theorem foldl_tell_replace (hc : RespectsMarks call) (event : Event)
    (listeners : List (Listener n)) {w : World n} (a : Model n) (hm : m ∈ w.dispatching)
    (h : m ≠ i) :
    listeners.foldl (tell call i event) (w.replace m a) =
      (listeners.foldl (tell call i event) w).replace m a := by
  induction listeners generalizing w with
  | nil => rfl
  | cons l rest ih =>
      have hm' : m ∈ (tell call i event w l).dispatching :=
        (tell_dispatching hc event w l).symm ▸ hm
      rw [List.foldl_cons, List.foldl_cons, tell_replace hc event l a hm h, ih hm']

theorem foldl_tell_getElem_self (hc : RespectsMarks call) (event : Event)
    (listeners : List (Listener n)) {w : World n} (hi : i ∈ w.dispatching) :
    (listeners.foldl (tell call i event) w)[i] = w[i] := by
  induction listeners generalizing w with
  | nil => rfl
  | cons l rest ih =>
      have hi' : i ∈ (tell call i event w l).dispatching :=
        (tell_dispatching hc event w l).symm ▸ hi
      rw [List.foldl_cons, ih hi', tell_getElem_self hc event l hi]

theorem dispatch_eq (event : Event) (w : World n) :
    dispatch call i w event =
      if w[i].registry.listeners.isEmpty then w
      else ((w[i].registry.audience event.kind).foldl (tell call i event)
        (w.mark i)).unmark i := rfl

theorem dispatch_dispatching (hc : RespectsMarks call) (event : Event) (w : World n) :
    (dispatch call i w event).dispatching = w.dispatching := by
  rw [dispatch_eq]
  split
  · rfl
  · rw [unmark_dispatching, foldl_tell_dispatching hc]
    exact List.erase_cons_head ..

theorem dispatch_replace (hc : RespectsMarks call) (event : Event) {w : World n} (a : Model n)
    (hm : m ∈ w.dispatching) (h : m ≠ i) :
    dispatch call i (w.replace m a) event = (dispatch call i w event).replace m a := by
  have hm' : m ∈ (w.mark i).dispatching := List.mem_cons_of_mem i hm
  rw [dispatch_eq, dispatch_eq, replace_getElem_of_ne h.symm]
  split
  · rfl
  · rw [mark_replace, foldl_tell_replace hc event _ a hm' h, unmark_replace]

theorem dispatch_getElem_self (hc : RespectsMarks call) (event : Event) (w : World n) :
    (dispatch call i w event)[i] = w[i] := by
  rw [dispatch_eq]
  split
  · rfl
  · exact foldl_tell_getElem_self hc event _ (w := w.mark i) List.mem_cons_self

theorem foldl_dispatch_dispatching (hc : RespectsMarks call) (events : List Event)
    (w : World n) : (events.foldl (dispatch call i) w).dispatching = w.dispatching := by
  induction events generalizing w with
  | nil => rfl
  | cons e rest ih => exact (ih _).trans (dispatch_dispatching hc e w)

theorem foldl_dispatch_replace (hc : RespectsMarks call) (events : List Event) {w : World n}
    (a : Model n) (hm : m ∈ w.dispatching) (h : m ≠ i) :
    events.foldl (dispatch call i) (w.replace m a) =
      (events.foldl (dispatch call i) w).replace m a := by
  induction events generalizing w with
  | nil => rfl
  | cons e rest ih =>
      have hm' : m ∈ (dispatch call i w e).dispatching :=
        (dispatch_dispatching hc e w).symm ▸ hm
      rw [List.foldl_cons, List.foldl_cons, dispatch_replace hc e a hm h, ih hm']

theorem foldl_dispatch_getElem_self (hc : RespectsMarks call) (events : List Event)
    (w : World n) : (events.foldl (dispatch call i) w)[i] = w[i] := by
  induction events generalizing w with
  | nil => rfl
  | cons e rest ih => exact (ih _).trans (dispatch_getElem_self hc e w)

theorem setStore_eq_replace (w : World n) (store : Store) :
    w.setStore i store = w.replace i { w[i] with store } := rfl

@[simp] theorem setStore_getElem_self (w : World n) (store : Store) :
    (w.setStore i store)[i] = { w[i] with store } :=
  replace_getElem_self ..

/-- What a listener is told and what it does about it depends on nothing in
the store of the model. -/
theorem tell_setStore (hc : RespectsMarks call) (event : Event) (listener : Listener n)
    {w : World n} (store : Store) (hi : i ∈ w.dispatching) :
    tell call i event (w.setStore i store) listener =
      (tell call i event w listener).setStore i store := by
  have hseen : (w.setStore i store).currentRevision i = w.currentRevision i := by
    rw [currentRevision, setStore_getElem_self, currentRevision]
  have hself := tell_getElem_self hc event listener hi
  simp only [setStore_eq_replace (tell call i event w listener), hself]
  simp only [tell, hseen]
  simp only [setStore_eq_replace, callAll_replace hc _ _ hi, post_replace]

theorem foldl_tell_setStore (hc : RespectsMarks call) (event : Event)
    (listeners : List (Listener n)) {w : World n} (store : Store) (hi : i ∈ w.dispatching) :
    listeners.foldl (tell call i event) (w.setStore i store) =
      (listeners.foldl (tell call i event) w).setStore i store := by
  induction listeners generalizing w with
  | nil => rfl
  | cons l rest ih =>
      have hi' : i ∈ (tell call i event w l).dispatching :=
        (tell_dispatching hc event w l).symm ▸ hi
      rw [List.foldl_cons, List.foldl_cons, tell_setStore hc event l store hi, ih hi']

theorem dispatch_setStore (hc : RespectsMarks call) (event : Event) (w : World n)
    (store : Store) :
    dispatch call i (w.setStore i store) event = (dispatch call i w event).setStore i store := by
  have hmark : (w.setStore i store).mark i = (w.mark i).setStore i store := rfl
  have hi : i ∈ (w.mark i).dispatching := List.mem_cons_self
  rw [dispatch_eq, dispatch_eq, setStore_getElem_self]
  split
  · rfl
  · rw [hmark, foldl_tell_setStore hc event _ store hi]
    rfl

theorem foldl_dispatch_setStore (hc : RespectsMarks call) (events : List Event) (w : World n)
    (store : Store) :
    events.foldl (dispatch call i) (w.setStore i store) =
      (events.foldl (dispatch call i) w).setStore i store := by
  induction events generalizing w with
  | nil => rfl
  | cons e rest ih =>
      rw [List.foldl_cons, List.foldl_cons, dispatch_setStore hc e w store, ih]

/-- The world in which a commit has been published and nobody been told. -/
def publish (w : World n) (i : Fin n) (store : Store) (c : Commit) : World n :=
  (w.replace i { w[i] with
    store, watch := w[i].watch.publish c.revision }).count
    (·.commit c.mutation c.revision store.elements.size)

theorem commit_eq (w : World n) (store : Store) (c : Commit) :
    w.commit call i store c = c.events.foldl (dispatch call i) (w.publish i store c) := rfl

theorem publish_replace {w : World n} (a : Model n) (store : Store) (c : Commit) (h : m ≠ i) :
    (w.replace m a).publish i store c = (w.publish i store c).replace m a := by
  simp only [publish, replace_getElem_of_ne h.symm]
  rw [replace_comm h.symm]
  rfl

/-- A commit replaces the store of its model, and what it does besides depends
on nothing in the store but the number of elements. -/
theorem commit_setStore (hc : RespectsMarks call) (w : World n) {store store' : Store}
    (before : Store) (c : Commit) (hsize : store'.elements.size = store.elements.size) :
    (w.setStore i before).commit call i store' c =
      (w.commit call i store c).setStore i store' := by
  have hpublish : (w.setStore i before).publish i store' c =
      (w.publish i store c).setStore i store' := by
    simp only [publish, setStore_eq_replace, hsize, replace_getElem_self, replace_replace,
      count_getElem, ← count_replace]
  rw [commit_eq, commit_eq, hpublish, foldl_dispatch_setStore hc]

theorem commit_getElem_self (hc : RespectsMarks call) (w : World n) (store : Store) (c : Commit) :
    (w.commit call i store c)[i] =
      { w[i] with store, watch := w[i].watch.publish c.revision } := by
  rw [commit_eq, foldl_dispatch_getElem_self hc]
  exact replace_getElem_self ..

theorem change_dispatching (hc : RespectsMarks call) (w : World n)
    (result : Except Error (Store × Commit)) :
    (change call w i result).1.dispatching = w.dispatching := by
  cases result with
  | error e => rfl
  | ok done => exact foldl_dispatch_dispatching hc _ (w.publish i done.1 done.2)

theorem change_replace (hc : RespectsMarks call) {w : World n} (a : Model n)
    (result : Except Error (Store × Commit)) (hm : m ∈ w.dispatching) (h : m ≠ i) :
    change call (w.replace m a) i result =
      ((change call w i result).1.replace m a, (change call w i result).2) := by
  cases result with
  | error e => rfl
  | ok done =>
      have hm' : m ∈ (w.publish i done.1 done.2).dispatching := hm
      simp only [change, commit_eq, publish_replace a _ _ h,
        foldl_dispatch_replace hc _ a hm' h]

theorem applyUpdates_dispatching (hc : RespectsMarks call) (updates : List (String × Value))
    (report : Report) (w : World n) :
    (applyUpdates call i report w updates).1.dispatching = w.dispatching := by
  induction updates generalizing report w with
  | nil => rfl
  | cons u rest ih =>
      have hd := change_dispatching (i := i) hc w (w[i].store.update u.1 u.2)
      rw [applyUpdates]
      rcases hr : change call w i (w[i].store.update u.1 u.2) with ⟨w', e | r⟩
      · rw [hr] at hd
        exact hd
      · rw [hr] at hd
        exact (ih _ w').trans hd

theorem applyUpdates_replace (hc : RespectsMarks call) (updates : List (String × Value))
    (report : Report) {w : World n} (a : Model n) (hm : m ∈ w.dispatching) (h : m ≠ i) :
    applyUpdates call i report (w.replace m a) updates =
      ((applyUpdates call i report w updates).1.replace m a,
        (applyUpdates call i report w updates).2) := by
  induction updates generalizing report w with
  | nil => rfl
  | cons u rest ih =>
      have hd := change_dispatching (i := i) hc w (w[i].store.update u.1 u.2)
      rw [applyUpdates, applyUpdates, replace_getElem_of_ne h.symm, change_replace hc a _ hm h]
      rcases hr : change call w i (w[i].store.update u.1 u.2) with ⟨w', e | r⟩
      · rfl
      · rw [hr] at hd
        have hm' : m ∈ w'.dispatching := hd.symm ▸ hm
        exact ih _ hm'

theorem setStore_replace {w : World n} (a : Model n) (store : Store) (h : m ≠ i) :
    (w.replace m a).setStore i store = (w.setStore i store).replace m a := by
  simp only [setStore, modify_eq_replace, replace_getElem_of_ne h.symm]
  exact replace_comm h.symm

theorem planAndApply_dispatching (hc : RespectsMarks call) (doc : Document) (w : World n) :
    (planAndApply call w i doc).1.dispatching = w.dispatching := by
  simp only [planAndApply]
  split
  · rfl
  · exact applyUpdates_dispatching hc _ _ _

theorem planAndApply_replace (hc : RespectsMarks call) (doc : Document) {w : World n}
    (a : Model n) (hm : m ∈ w.dispatching) (h : m ≠ i) :
    planAndApply call (w.replace m a) i doc =
      ((planAndApply call w i doc).1.replace m a, (planAndApply call w i doc).2) := by
  simp only [planAndApply, replace_getElem_of_ne h.symm, setStore_replace a _ h]
  cases hp : w[i].store.plan doc with
  | error e => rfl
  | ok plan => exact applyUpdates_replace hc _ _ a hm h

theorem applyDocument_dispatching (hc : RespectsMarks call) (doc : Document) (w : World n) :
    (applyDocument call w i doc).1.dispatching = w.dispatching := by
  have hd := planAndApply_dispatching (i := i) hc doc w
  simp only [applyDocument]
  split <;> next hr => rw [hr] at hd; exact hd

theorem applyDocument_replace (hc : RespectsMarks call) (doc : Document) {w : World n}
    (a : Model n) (hm : m ∈ w.dispatching) (h : m ≠ i) :
    applyDocument call (w.replace m a) i doc =
      ((applyDocument call w i doc).1.replace m a, (applyDocument call w i doc).2) := by
  rw [applyDocument, applyDocument, planAndApply_replace hc doc a hm h]
  rcases planAndApply call w i doc with ⟨w', e | r⟩ <;> rfl

theorem operate_dispatching (hc : RespectsMarks call) (op : Operation (Listener n))
    (w : World n) : (operate call w i op).1.dispatching = w.dispatching := by
  cases op with
  | add | update | remove | annotate => exact change_dispatching hc w _
  | apply doc => exact applyDocument_dispatching hc doc w
  | look | submit | setLayout | schema | full | delta | register | unregister => rfl

theorem operate_replace (hc : RespectsMarks call) (op : Operation (Listener n)) {w : World n}
    (a : Model n) (hm : m ∈ w.dispatching) (h : m ≠ i) :
    operate call (w.replace m a) i op =
      ((operate call w i op).1.replace m a, (operate call w i op).2) := by
  cases op with
  | add | update | remove | annotate =>
      simp only [operate, replyRevision, replace_getElem_of_ne h.symm, change_replace hc a _ hm h]
  | apply doc => exact applyDocument_replace hc doc a hm h
  | submit => rfl
  | look => simp only [operate, replace_getElem_of_ne h.symm]
  | setLayout | schema =>
      simp only [operate, replace_getElem_of_ne h.symm, setStore_replace a _ h]
  | full | delta =>
      simp only [operate, replace_getElem_of_ne h.symm, setStore_replace a _ h]
      rfl
  | register | unregister =>
      simp only [operate, replace_getElem_of_ne h.symm, modify_eq_replace]
      rw [replace_comm h.symm]

theorem answer_of_marked {c : Call n} (hm : c.1 ∈ w.dispatching)
    (hs : isSubmission (readDocument c.2) = false) :
    answer call w c = (w, .error .reentrantAccess) :=
  if_pos ⟨hm, by simp [hs]⟩

theorem answer_of_submission {c : Call n} (hs : isSubmission (readDocument c.2) = true) :
    answer call w c = (w.count (·.countUnreadable), .error .malformedDocument) := by
  rw [answer, if_neg (by simp [hs])]
  cases hop : readDocument c.2 with
  | submit => rfl
  | _ => simp [hop, isSubmission] at hs

theorem answer_of_free {c : Call n} (hm : c.1 ∉ w.dispatching) :
    answer call w c = operate call w c.1 (readDocument c.2) :=
  if_neg fun h => hm h.1

theorem answer_respectsMarks (hc : RespectsMarks call) : RespectsMarks (answer call) where
  dispatching w c := by
    simp only [answer]
    split
    · rfl
    · exact operate_dispatching hc _ w
  replace {w c m} a hm := by
    by_cases hs : isSubmission (readDocument c.2) = true
    · rw [answer_of_submission hs, answer_of_submission hs]
      rfl
    · by_cases hmark : c.1 ∈ w.dispatching
      · have hs' := Bool.eq_false_iff.2 hs
        rw [answer_of_marked hmark hs', answer_of_marked (w := w.replace m a) hmark hs']
      · have h : m ≠ c.1 := fun heq => hmark (heq ▸ hm)
        rw [answer_of_free hmark, answer_of_free (w := w.replace m a) hmark]
        exact operate_replace hc _ a hm h

end tower

theorem perform_respectsMarks : ∀ depth, RespectsMarks (perform (n := n) depth)
  | 0 => ⟨fun _ _ => rfl, fun _ _ => rfl⟩
  | depth + 1 => answer_respectsMarks (perform_respectsMarks depth)

/-- A call is refused for a mark, or it comes to its operation. -/
theorem perform_eq_or (depth : Nat) (w : World n) (c : Call n) :
    perform depth w c = (w, .error .reentrantAccess) ∨
      ∃ below, perform depth w c = operate (perform below) w c.1 (readDocument c.2) := by
  cases depth with
  | zero => exact .inl rfl
  | succ depth =>
      rw [perform, answer]
      split
      · exact .inl rfl
      · exact .inr ⟨depth, rfl⟩

end World

end SharedState
