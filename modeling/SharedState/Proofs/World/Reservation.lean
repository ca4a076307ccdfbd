import SharedState.Proofs.World.Handles

/-!
# An inbox of one registration

To say what one registration of a listener receives, its inbox has to be its
own: no other listener writes to it, and none of the calls that listeners make
brings in another that does. A `Reservation` names the registration and the
inbox, and `Held` is the invariant that keeps others away from it.

With it the calls of listeners fall into two kinds, and both are carried up the
tower of the interpreter by the same lemmas, which `Carries` states for any
relation between worlds that composes and does not see what happens aside.
While the model is marked its listeners are being told, and nothing reaches the
inbox but what they are told of: `carries_marked`. And a call to another model
is for this one what it is in `History.lean`, some exchanges and things aside;
that use is in `Delivery.lean`.
-/

namespace SharedState

variable {n : Nat}

/-- Neither the listener writes to an inbox nor any that it ever registers. -/
inductive Listener.Avoids (inbox : Nat) : Listener n → Prop
  | mk {interest calls own} (writes : own ≠ some inbox)
      (registers : ∀ event, ∀ c ∈ calls event, ∀ l, c.2 = .register l → Avoids inbox l) :
      Avoids inbox (.mk interest calls own)

/-- The operation brings in no listener that writes to an inbox. -/
def Operation.Avoids (inbox : Nat) : Operation (Listener n) → Prop
  | .register l => l.Avoids inbox
  | _ => True

/-- The calls of a listener bring in no listener that writes to an inbox. -/
def Listener.CallsAvoid (inbox : Nat) (l : Listener n) : Prop :=
  ∀ event, ∀ c ∈ l.calls event, c.2.Avoids inbox

theorem Listener.Avoids.callsAvoid {inbox : Nat} {l : Listener n} (h : l.Avoids inbox) :
    l.CallsAvoid inbox := by
  obtain ⟨-, hregisters⟩ := h
  intro event c hc
  cases hop : c.2 with
  | register l' => exact hregisters event c hc l' hop
  | _ => trivial

theorem Listener.Avoids.inbox_ne {inbox : Nat} {l : Listener n} (h : l.Avoids inbox) :
    l.inbox ≠ some inbox := by
  obtain ⟨hwrites, -⟩ := h
  exact hwrites

/-- A registration of a listener with an inbox that is to be its own. -/
structure Reservation (n : Nat) where
  model : Fin n
  handle : Nat
  listener : Listener n
  inbox : Nat
  writes : listener.inbox = some inbox
  calls : listener.CallsAvoid inbox

namespace Reservation

/-- Nothing is registered under the handle but the listener, and no other
listener of the model writes to the inbox. -/
structure Kept (ρ : Reservation n) (r : Registry n) : Prop where
  counted : r.Counted
  given : ρ.handle ≤ r.lastHandle
  own : ∀ e ∈ r.listeners, e.1 = ρ.handle → e.2 = ρ.listener
  others : ∀ e ∈ r.listeners, e.1 ≠ ρ.handle → e.2.Avoids ρ.inbox

/-- Nobody writes to the inbox but the registration. -/
structure Held (ρ : Reservation n) (w : World n) : Prop where
  here : ρ.Kept w[ρ.model].registry
  elsewhere : ∀ i, i ≠ ρ.model → ∀ e ∈ w[i].registry.listeners, e.2.Avoids ρ.inbox

variable {ρ : Reservation n}

theorem Kept.register {r : Registry n} (h : ρ.Kept r) {l : Listener n} (hl : l.Avoids ρ.inbox) :
    ρ.Kept (r.register l).1 where
  counted := h.counted.register l
  given := Nat.le_succ_of_le h.given
  own := by
    intro e he heq
    rcases List.mem_append.1 he with he | he
    · exact h.own e he heq
    · have hlast := h.given
      rw [List.mem_singleton.1 he] at heq
      have hnew : r.lastHandle + 1 = ρ.handle := heq
      omega
  others := by
    intro e he hne
    rcases List.mem_append.1 he with he | he
    · exact h.others e he hne
    · rw [List.mem_singleton.1 he]
      exact hl

theorem Kept.unregister {r : Registry n} (h : ρ.Kept r) (handle : Nat) :
    ρ.Kept (r.unregister handle).1 where
  counted := h.counted.unregister handle
  given := h.given
  own e he := h.own e (List.mem_of_mem_filter he)
  others e he := h.others e (List.mem_of_mem_filter he)

/-- The listeners of another model that are to be told of an event. -/
theorem Held.audience {w : World n} (h : ρ.Held w) {i : Fin n} (hi : i ≠ ρ.model)
    {kind : EventKind} {l : Listener n} (hl : l ∈ w[i].registry.audience kind) :
    l.Avoids ρ.inbox := by
  obtain ⟨e, he, rfl⟩ := List.mem_map.1 (List.mem_of_mem_filter hl)
  exact h.elsewhere i hi e he

theorem Held.congr {w w' : World n} (h : ρ.Held w)
    (heq : ∀ i : Fin n, w'[i].registry = w[i].registry) : ρ.Held w' where
  here := by
    rw [heq]
    exact h.here
  elsewhere i hi := by
    rw [heq]
    exact h.elsewhere i hi

/-- The reservation outlasts whatever happens to the model that keeps it. -/
theorem Held.replace {w : World n} (h : ρ.Held w) {model : Model n}
    (hkept : ρ.Kept model.registry) :
    ρ.Held (w.replace ρ.model model) where
  here := by
    rw [World.replace_getElem_self]
    exact hkept
  elsewhere i hi := by
    rw [World.replace_getElem_of_ne hi]
    exact h.elsewhere i hi

theorem Held.setStore {w : World n} (h : ρ.Held w) (store : Store) :
    ρ.Held (w.setStore ρ.model store) := by
  rw [World.setStore_eq_replace]
  exact h.replace h.here

theorem Held.count {w : World n} (h : ρ.Held w) (f : Metrics → Metrics) : ρ.Held (w.count f) :=
  h.congr fun _ => rfl

/-- Something happened in which the model, its mark and the inbox had no part. -/
structure Aside (ρ : Reservation n) (w w' : World n) : Prop where
  model : w'[ρ.model] = w[ρ.model]
  marked : ρ.model ∈ w'.dispatching ↔ ρ.model ∈ w.dispatching
  inbox : w'.inboxes[ρ.inbox]? = w.inboxes[ρ.inbox]?

theorem Aside.refl (w : World n) : ρ.Aside w w := ⟨rfl, .rfl, rfl⟩

/-- A condition on the model that outlasts what happens aside, and a relation
that composes and that what happens aside belongs to. -/
structure Composes (ρ : Reservation n) (P : World n → Prop) (R : World n → World n → Prop) :
    Prop where
  stays : ∀ {w w'}, ρ.Aside w w' → P w → P w'
  aside : ∀ {w w'}, ρ.Aside w w' → R w w'
  trans : ∀ {w w' w''}, R w w' → R w' w'' → R w w''

/-- From a world in which the reservation is held and the condition met, the
step leads to another such world, and the two are related. -/
def Carries (ρ : Reservation n) (P : World n → Prop) (R : World n → World n → Prop)
    (w w' : World n) : Prop :=
  ρ.Held w → P w → ρ.Held w' ∧ P w' ∧ R w w'

/-! ## Up the tower -/

section tower

open World

variable {P : World n → Prop} {R : World n → World n → Prop} (hR : ρ.Composes P R)
include hR

theorem Carries.trans {w w' w'' : World n} (h : ρ.Carries P R w w')
    (h' : ρ.Carries P R w' w'') : ρ.Carries P R w w'' := by
  intro hheld hp
  obtain ⟨hheld', hp', hr⟩ := h hheld hp
  obtain ⟨hheld'', hp'', hr'⟩ := h' hheld' hp'
  exact ⟨hheld'', hp'', hR.trans hr hr'⟩

theorem carries_of_aside {w w' : World n} (h : ρ.Aside w w')
    (heq : ∀ i : Fin n, w'[i].registry = w[i].registry) : ρ.Carries P R w w' := by
  intro hheld hp
  exact ⟨hheld.congr heq, hR.stays h hp, hR.aside h⟩

theorem carries_refl (w : World n) : ρ.Carries P R w w :=
  carries_of_aside hR (.refl w) fun _ => rfl

theorem carries_foldl {α : Type} {f : World n → α → World n} {l : List α}
    (hf : ∀ w, ∀ a ∈ l, ρ.Carries P R w (f w a)) (w : World n) :
    ρ.Carries P R w (l.foldl f w) := by
  induction l generalizing w with
  | nil => exact carries_refl hR w
  | cons a rest ih =>
      have hrest : ∀ w, ∀ a ∈ rest, ρ.Carries P R w (f w a) :=
        fun w a ha => hf w a (List.mem_cons_of_mem _ ha)
      exact (hf w a List.mem_cons_self).trans hR (ih hrest (f w a))

theorem carries_post {w : World n} {inbox : Option Nat} (h : inbox ≠ some ρ.inbox)
    (notice : Notice) : ρ.Carries P R w (w.post inbox notice) := by
  refine carries_of_aside hR ⟨post_getElem .., ?_, ?_⟩ ?_
  · rw [post_dispatching]
  · cases inbox with
    | none => rfl
    | some other => exact List.getElem?_modify_ne _ _ (fun heq => h (congrArg some heq))
  · intro i
    rw [post_getElem]

theorem carries_count (w : World n) (f : Metrics → Metrics) : ρ.Carries P R w (w.count f) :=
  carries_of_aside hR ⟨rfl, .rfl, rfl⟩ fun _ => rfl

theorem carries_replace {i : Fin n} (hi : i ≠ ρ.model) (w : World n) {model : Model n}
    (h : ρ.Held w → ∀ e ∈ model.registry.listeners, e.2.Avoids ρ.inbox) :
    ρ.Carries P R w (w.replace i model) := by
  intro hheld hp
  have haside : ρ.Aside w (w.replace i model) := ⟨replace_getElem_of_ne hi.symm, .rfl, rfl⟩
  refine ⟨⟨?_, ?_⟩, hR.stays haside hp, hR.aside haside⟩
  · rw [replace_getElem_of_ne hi.symm]
    exact hheld.here
  · intro j hj
    by_cases hji : j = i
    · rw [hji, replace_getElem_self]
      exact h hheld
    · rw [replace_getElem_of_ne hji]
      exact hheld.elsewhere j hj

theorem carries_setStore {i : Fin n} (hi : i ≠ ρ.model) (w : World n) (store : Store) :
    ρ.Carries P R w (w.setStore i store) :=
  carries_replace hR hi w fun hheld => hheld.elsewhere i hi

variable {call : World n → Call n → World n × Reply}
  (hc : ∀ w c, c.2.Avoids ρ.inbox → ρ.Carries P R w (call w c).1)
include hc

theorem carries_callAll {calls : List (Call n)} (h : ∀ c ∈ calls, c.2.Avoids ρ.inbox)
    (w : World n) : ρ.Carries P R w (callAll call w calls).1 := by
  induction calls generalizing w with
  | nil => exact carries_refl hR w
  | cons c rest ih =>
      have hrest : ∀ c ∈ rest, c.2.Avoids ρ.inbox := fun c hmem => h c (List.mem_cons_of_mem _ hmem)
      exact (hc w c (h c List.mem_cons_self)).trans hR (ih hrest (call w c).1)

variable {i : Fin n}

theorem carries_tell (event : Event) (w : World n) {l : Listener n} (h : l.Avoids ρ.inbox) :
    ρ.Carries P R w (tell call i event w l) :=
  (carries_callAll hR hc (h.callsAvoid event) w).trans hR (carries_post hR h.inbox_ne _)

/-! Below, the operation is on another model. -/

variable (hi : i ≠ ρ.model)
include hi

theorem carries_dispatch (w : World n) (event : Event) :
    ρ.Carries P R w (dispatch call i w event) := by
  rw [dispatch_eq]
  split
  · exact carries_refl hR w
  · intro hheld
    have hmark : ρ.Aside w (w.mark i) := ⟨rfl, List.mem_cons.trans (or_iff_right hi.symm), rfl⟩
    have hunmark : ∀ w' : World n, ρ.Aside w' (w'.unmark i) :=
      fun w' => ⟨rfl, List.mem_erase_of_ne hi.symm, rfl⟩
    have htold : ∀ w', ∀ l ∈ w[i].registry.audience event.kind,
        ρ.Carries P R w' (tell call i event w' l) :=
      fun w' l hl => carries_tell hR hc event w' (hheld.audience hi hl)
    exact (((carries_of_aside hR hmark fun _ => rfl).trans hR
      (carries_foldl hR htold _)).trans hR
      (carries_of_aside hR (hunmark _) fun _ => rfl)) hheld

theorem carries_change (w : World n) (result : Except Error (Store × Commit)) :
    ρ.Carries P R w (change call w i result).1 := by
  cases result with
  | error e => exact carries_refl hR w
  | ok done =>
      have hstore : ρ.Carries P R w (w.replace i { w[i] with
          store := done.1, watch := w[i].watch.publish done.2.revision }) :=
        carries_replace hR hi w fun hheld => hheld.elsewhere i hi
      exact (hstore.trans hR (carries_count hR _ _)).trans hR
        (carries_foldl hR (fun w e _ => carries_dispatch hR hc hi w e) _)

theorem carries_applyUpdates (updates : List (String × Value)) (report : Report) (w : World n) :
    ρ.Carries P R w (applyUpdates call i report w updates).1 := by
  induction updates generalizing report w with
  | nil => exact carries_refl hR w
  | cons u rest ih =>
      have hu := carries_change hR hc hi w (w[i].store.update u.1 u.2)
      rw [applyUpdates]
      rcases hr : change call w i (w[i].store.update u.1 u.2) with ⟨w', e | r⟩
      · rw [hr] at hu
        exact hu
      · rw [hr] at hu
        exact hu.trans hR (ih _ w')

theorem carries_applyDocument (doc : Document) (w : World n) :
    ρ.Carries P R w (applyDocument call w i doc).1 := by
  have happly : ρ.Carries P R w (planAndApply call w i doc).1 := by
    have hplan := carries_setStore hR hi w (w[i].store.afterPlanning doc)
    simp only [planAndApply]
    split
    · exact hplan
    · exact hplan.trans hR (carries_applyUpdates hR hc hi _ _ _)
  rw [applyDocument]
  rcases hr : planAndApply call w i doc with ⟨w', e | report⟩ <;> rw [hr] at happly <;>
    dsimp only <;> exact happly.trans hR (carries_count hR w' _)

theorem carries_operate {op : Operation (Listener n)} (hop : op.Avoids ρ.inbox) (w : World n) :
    ρ.Carries P R w (operate call w i op).1 := by
  cases op with
  | look => exact carries_refl hR w
  | add | update | remove | annotate => exact carries_change hR hc hi w _
  | apply doc => exact carries_applyDocument hR hc hi doc w
  | submit => exact carries_count hR w _
  | setLayout | schema => exact carries_setStore hR hi w _
  | full | delta => exact (carries_setStore hR hi w _).trans hR (carries_count hR _ _)
  | register l =>
      refine carries_replace hR hi w ?_
      intro hheld e he
      rcases List.mem_append.1 he with he | he
      · exact hheld.elsewhere i hi e he
      · rw [List.mem_singleton.1 he]
        exact hop
  | unregister handle =>
      refine carries_replace hR hi w ?_
      intro hheld e he
      exact hheld.elsewhere i hi e (List.mem_of_mem_filter he)

end tower

section perform

open World

theorem readDocument_avoids {op : Operation (Listener n)} {inbox : Nat} (h : op.Avoids inbox) :
    (readDocument op).Avoids inbox := by
  cases op with
  | submit bytes =>
      simp only [readDocument]
      cases Document.parse? bytes <;> trivial
  | _ => exact h

/-- What holds of the calls to the model itself holds of all calls. -/
theorem carries_perform {P : World n → Prop} {R : World n → World n → Prop}
    (hR : ρ.Composes P R)
    (hself : ∀ depth w (op : Operation (Listener n)), op.Avoids ρ.inbox →
      ρ.Carries P R w (perform depth w (ρ.model, op)).1)
    (depth : Nat) {w : World n} {c : Call n} (h : c.2.Avoids ρ.inbox) :
    ρ.Carries P R w (perform depth w c).1 := by
  induction depth generalizing w c with
  | zero => exact carries_refl hR w
  | succ depth ih =>
      obtain ⟨i, op⟩ := c
      by_cases hi : i = ρ.model
      · rw [hi]
        exact hself (depth + 1) w op h
      · show ρ.Carries P R w (answer (perform depth) w (i, op)).1
        rw [answer]
        split
        · exact carries_refl hR w
        · exact carries_operate hR (fun _ _ hc => ih hc) hi (readDocument_avoids h) w

/-- Nothing is written to the inbox. -/
def Quiet (ρ : Reservation n) (w w' : World n) : Prop :=
  w'.inboxes[ρ.inbox]? = w.inboxes[ρ.inbox]?

theorem quiet_composes : ρ.Composes (ρ.model ∈ ·.dispatching) ρ.Quiet where
  stays h := h.marked.2
  aside h := h.inbox
  trans h h' := h'.trans h

/-- While the model is marked no call reaches the inbox. -/
theorem carries_marked (depth : Nat) (w : World n) {c : Call n} (h : c.2.Avoids ρ.inbox) :
    ρ.Carries (ρ.model ∈ ·.dispatching) ρ.Quiet w (perform depth w c).1 := by
  refine carries_perform quiet_composes ?_ depth h
  intro depth w op _ hheld hm
  cases depth with
  | zero => exact carries_refl quiet_composes w hheld hm
  | succ depth =>
      rw [perform]
      by_cases hs : isSubmission (readDocument op) = true
      · rw [answer_of_submission hs]
        exact carries_count quiet_composes w _ hheld hm
      · rw [answer_of_marked hm (Bool.eq_false_iff.2 hs)]
        exact carries_refl quiet_composes w hheld hm

end perform

end Reservation

end SharedState
