import SharedState.Proofs.World.Operation

/-!
# What an answer tells

An exchange is an operation on a model with the answer that it got, and the
answer tells all there is to know about the revisions: `Exchange.commits` reads
off how many commits were made, `Exchange.revisions` which revisions they made,
and `Exchange.Explains` says that a model went through just these. An answer
that is an error tells that nothing happened, which `Untouched` spells out.
-/

namespace SharedState

variable {n : Nat}

/-- An operation on a model with the answer that it got. -/
structure Exchange (n : Nat) where
  operation : Operation (Listener n)
  reply : Reply

namespace Exchange

/-- The commits that an exchange stands for: one for a change that succeeded,
and one for each applied entry of a document. -/
def commits (x : Exchange n) : Nat :=
  match x.operation with
  | .add _ | .update .. | .remove _ | .annotate .. =>
    match x.reply with
    | .ok _ => 1
    | .error _ => 0
  | .apply _ | .submit _ =>
    match x.reply with
    | .ok (.report report) => report.applied.length
    | _ => 0
  | _ => 0

/-- The revisions that the answer claims for the exchange. -/
def revisions (x : Exchange n) : List Nat :=
  match x.reply with
  | .ok (.revision revision) => [revision]
  | .ok (.report report) =>
    List.range' (report.revision + 1 - report.applied.length) report.applied.length
  | _ => []

/-- The operation is one of the four that change one element each. -/
def IsChange : Operation (Listener n) → Prop
  | .add _ | .update .. | .remove _ | .annotate .. => True
  | _ => False

/-- One model comes from the other by the commits that the answer tells of, and
by no others. -/
def Explains (x : Exchange n) (a b : Model n) : Prop :=
  ∃ commits, a.Evolves commits b ∧ commits.length = x.commits ∧
    commits.map (·.revision) = x.revisions

theorem explains_of_silent {x : Exchange n} {a b : Model n} (hc : x.commits = 0)
    (hr : x.revisions = []) (h : a.Evolves [] b) : x.Explains a b :=
  ⟨[], h, hc.symm, hr.symm⟩

theorem explains_error (op : Operation (Listener n)) (e : Error) {a b : Model n}
    (h : a.Evolves [] b) : Explains ⟨op, .error e⟩ a b := by
  refine explains_of_silent ?_ rfl h
  cases op <;> rfl

/-- An answer means the same for a submission as for the document in it. -/
theorem Explains.of_readDocument {op : Operation (Listener n)} {reply : Reply}
    {a b : Model n} (h : Explains ⟨World.readDocument op, reply⟩ a b) :
    Explains ⟨op, reply⟩ a b := by
  cases op with
  | submit bytes =>
      simp only [World.readDocument] at h
      cases hdoc : Document.parse? bytes with
      | none => rwa [hdoc] at h
      | some doc => rwa [hdoc] at h
  | _ => exact h

end Exchange

namespace World

variable {call : World n → Call n → World n × Reply} {w : World n} {i : Fin n}

/-- Only the metrics differ and the schema that the model keeps. -/
structure Untouched (m : Fin n) (w w' : World n) : Prop where
  elements : w'[m].store.elements = w[m].store.elements
  revision : w'[m].store.revision = w[m].store.revision
  layout : w'[m].store.layout = w[m].store.layout
  policy : w'[m].store.policy = w[m].store.policy
  registry : w'[m].registry = w[m].registry
  watch : w'[m].watch = w[m].watch
  elsewhere : ∀ i, i ≠ m → w'[i] = w[i]
  inboxes : w'.inboxes = w.inboxes
  tokens : w'.tokens = w.tokens
  dispatching : w'.dispatching = w.dispatching

theorem Untouched.refl (m : Fin n) (w : World n) : Untouched m w w :=
  ⟨rfl, rfl, rfl, rfl, rfl, rfl, fun _ _ => rfl, rfl, rfl, rfl⟩

theorem Untouched.trans {w' w'' : World n} (h : Untouched i w w') (h' : Untouched i w' w'') :
    Untouched i w w'' where
  elements := h'.elements.trans h.elements
  revision := h'.revision.trans h.revision
  layout := h'.layout.trans h.layout
  policy := h'.policy.trans h.policy
  registry := h'.registry.trans h.registry
  watch := h'.watch.trans h.watch
  elsewhere j hj := (h'.elsewhere j hj).trans (h.elsewhere j hj)
  inboxes := h'.inboxes.trans h.inboxes
  tokens := h'.tokens.trans h.tokens
  dispatching := h'.dispatching.trans h.dispatching

theorem Untouched.count {w' : World n} (h : Untouched i w w') (f : Metrics → Metrics) :
    Untouched i w (w'.count f) :=
  ⟨h.elements, h.revision, h.layout, h.policy, h.registry, h.watch, h.elsewhere, h.inboxes,
    h.tokens, h.dispatching⟩

theorem untouched_keepSchema (m : Fin n) (w : World n) :
    Untouched m w (w.setStore m w[m].store.keepSchema) := by
  have hself : (w.setStore m w[m].store.keepSchema)[m] =
      { w[m] with store := w[m].store.keepSchema } := setStore_getElem_self w _
  refine ⟨?_, ?_, ?_, ?_, ?_, ?_, ?_, rfl, rfl, rfl⟩
  · rw [hself]; rfl
  · rw [hself]; rfl
  · rw [hself]; rfl
  · rw [hself]; rfl
  · rw [hself]
  · rw [hself]
  · intro i hi
    exact replace_getElem_of_ne hi

theorem untouched_afterPlanning (m : Fin n) (w : World n) (doc : Document) :
    Untouched m w (w.setStore m (w[m].store.afterPlanning doc)) := by
  rcases w[m].store.afterPlanning_eq_or doc with heq | heq
  · rw [heq, setStore_getElem]
    exact .refl m w
  · rw [heq]
    exact untouched_keepSchema m w

/-! ## Errors -/

theorem change_untouched {result : Except Error (Store × Commit)} {e : Error}
    (h : (replyRevision (change call w i result)).2 = .error e) :
    Untouched i w (replyRevision (change call w i result)).1 := by
  cases result with
  | error _ => exact .refl i w
  | ok done => cases h

theorem applyDocument_untouched (hc : RespectsMarks call) (hs : w[i].store.Sound)
    {doc : Document} {e : Error} (h : (applyDocument call w i doc).2 = .error e) :
    Untouched i w (applyDocument call w i doc).1 := by
  by_cases href : w[i].store.Refuses doc
  · obtain ⟨e', happly⟩ := applyDocument_of_refuses call hs href
    rw [happly]
    exact (untouched_afterPlanning i w doc).count (·.countApply false)
  · rw [applyDocument_of_not_refuses hc hs href] at h
    cases h

theorem operate_untouched (hc : RespectsMarks call) (hs : w[i].store.Sound)
    {op : Operation (Listener n)} {e : Error} (h : (operate call w i op).2 = .error e) :
    Untouched i w (operate call w i op).1 := by
  cases op with
  | add | update | remove | annotate => exact change_untouched h
  | apply doc => exact applyDocument_untouched hc hs h
  | submit bytes => exact (Untouched.refl i w).count _
  | look | setLayout | schema | full | delta | register | unregister => cases h

theorem perform_untouched (depth : Nat) (hs : w[i].store.Sound)
    {op : Operation (Listener n)} {e : Error} (h : (perform depth w (i, op)).2 = .error e) :
    Untouched i w (perform depth w (i, op)).1 := by
  rcases perform_eq_or depth w (i, op) with hp | ⟨below, hp⟩
  · rw [hp]
    exact .refl i w
  · rw [hp] at h ⊢
    exact operate_untouched (perform_respectsMarks below) hs h

/-! ## Changes that succeed -/

theorem perform_change (depth : Nat) {op : Operation (Listener n)} (hop : Exchange.IsChange op)
    {outcome : Outcome} (h : (perform depth w (i, op)).2 = .ok outcome) :
    ∃ revision, outcome = .revision revision := by
  rcases perform_eq_or depth w (i, op) with hp | ⟨below, hp⟩
  · rw [hp] at h
    cases h
  · rw [hp] at h
    cases op with
    | add | update | remove | annotate =>
        simp only [readDocument, operate, replyRevision] at h
        obtain ⟨revision, -, hr⟩ := map_eq_ok_iff.1 h
        exact ⟨revision, hr.symm⟩
    | _ => exact hop.elim

/-! ## Commits -/

theorem change_explained (hc : RespectsMarks call) {result : Except Error (Store × Commit)}
    (h : ∀ done, result = .ok done → w[i].store.Step done) {op : Operation (Listener n)}
    (hop : Exchange.IsChange op) :
    Exchange.Explains ⟨op, (replyRevision (change call w i result)).2⟩ w[i]
      (replyRevision (change call w i result)).1[i] := by
  cases result with
  | error e => exact Exchange.explains_error op e .refl
  | ok done =>
      refine ⟨[done.2], ?_, ?_, rfl⟩
      · show w[i].Evolves _ (change call w i (.ok done)).1[i]
        rw [change_getElem_self hc]
        exact .step (h done rfl)
      · cases op with
        | add | update | remove | annotate => rfl
        | _ => exact hop.elim

theorem applyDocument_explained (hc : RespectsMarks call) (hs : w[i].store.Sound)
    (doc : Document) :
    Exchange.Explains (n := n) ⟨.apply doc, (applyDocument call w i doc).2⟩ w[i]
      (applyDocument call w i doc).1[i] := by
  by_cases href : w[i].store.Refuses doc
  · obtain ⟨e, happly⟩ := applyDocument_of_refuses call hs href
    rw [happly]
    apply Exchange.explains_error
    rw [count_getElem, setStore_getElem_self]
    exact Model.Evolves.refl.afterPlanning doc
  · have ht := Store.takes_of_not_refuses href
    obtain ⟨commits, hev, hlen⟩ := updateAll_evolves hc hs ht
    rw [applyDocument_of_not_refuses hc hs href]
    refine ⟨commits, ?_, ?_, ?_⟩
    · rw [count_getElem, setStore_getElem_self]
      exact hev.afterPlanning doc
    · simp only [Exchange.commits, Store.reportFor, List.length_map, hlen]
    · have hfirst : w[i].store.revision + commits.length + 1 - commits.length =
          w[i].store.revision + 1 := by omega
      rw [hev.revisions.2]
      simp only [Exchange.revisions, Store.reportFor, List.length_map, ← hlen, hfirst]

theorem operate_explained (hc : RespectsMarks call) (hs : w[i].store.Sound)
    (op : Operation (Listener n)) :
    Exchange.Explains ⟨op, (operate call w i op).2⟩ w[i] (operate call w i op).1[i] := by
  cases op with
  | add spec => exact change_explained hc (fun _ hd => .add hd) trivial
  | update key value => exact change_explained hc (fun _ hd => .update hd) trivial
  | remove key => exact change_explained hc (fun _ hd => .remove hd) trivial
  | annotate key label => exact change_explained hc (fun _ hd => .annotate hd) trivial
  | apply doc => exact applyDocument_explained hc hs doc
  | look | submit => exact Exchange.explains_of_silent rfl rfl .refl
  | setLayout layout =>
      apply Exchange.explains_of_silent rfl rfl
      simp only [operate, setStore_getElem_self]
      exact Model.Evolves.refl.setLayout layout
  | schema | full | delta =>
      apply Exchange.explains_of_silent rfl rfl
      simp only [operate, count_getElem, setStore_getElem_self]
      exact Model.Evolves.refl.keepSchema
  | register | unregister =>
      apply Exchange.explains_of_silent rfl rfl
      simp only [operate, modify_eq_replace, replace_getElem_self]
      exact Model.Evolves.refl.setRegistry _

/-- A call takes its model through the commits that its answer tells of. -/
theorem perform_explained (depth : Nat) (hs : w[i].store.Sound)
    (op : Operation (Listener n)) :
    Exchange.Explains ⟨op, (perform depth w (i, op)).2⟩ w[i]
      (perform depth w (i, op)).1[i] := by
  rcases perform_eq_or depth w (i, op) with hp | ⟨below, hp⟩
  · rw [hp]
    exact Exchange.explains_error op _ .refl
  · rw [hp]
    exact (operate_explained (perform_respectsMarks below) hs (readDocument op)).of_readDocument

end World

end SharedState
