import SharedState.Proofs.World.Operation

/-!
# What calls keep to

All that an operation does itself is take its own model through elementary
steps and change the marks, the inboxes and the metrics. The rest is done by
the calls of listeners. So a relation between the world before and the world
after holds for an operation as soon as it holds for these calls, if it
composes, allows the elementary steps, and sees nothing but models and tokens.
The tower of the interpreter is climbed here once for all such relations.
-/

namespace SharedState

namespace World

variable {n : Nat}

/-- Steps that are in the relation compose, and what an operation on a model does itself is in
the relation. -/
structure Frame (R : World n → World n → Prop) (i : Fin n) : Prop where
  trans : ∀ {w w' w''}, R w w' → R w' w'' → R w w''
  own : ∀ {w : World n} {commits model}, w[i].Evolves commits model → R w (w.replace i model)
  aside : ∀ {w w' : World n}, w'.models = w.models → w'.tokens = w.tokens → R w w'

theorem getElem_of_models {w w' : World n} (h : w'.models = w.models) (m : Fin n) :
    w'[m] = w[m] := by
  show w'.models[m] = w.models[m]
  rw [h]

variable {R : World n → World n → Prop} {i : Fin n} (hR : Frame R i)
include hR

theorem frame_foldl {α : Type} {f : World n → α → World n} (hf : ∀ w a, R w (f w a))
    (l : List α) (w : World n) : R w (l.foldl f w) := by
  induction l generalizing w with
  | nil => exact hR.aside rfl rfl
  | cons a rest ih => exact hR.trans (hf w a) (ih (f w a))

theorem frame_post (w : World n) (inbox : Option Nat) (notice : Notice) :
    R w (w.post inbox notice) := by
  cases inbox <;> exact hR.aside rfl rfl

variable {call : World n → Call n → World n × Reply} (hc : ∀ w c, R w (call w c).1)
include hc

theorem frame_callAll (calls : List (Call n)) (w : World n) : R w (callAll call w calls).1 := by
  induction calls generalizing w with
  | nil => exact hR.aside rfl rfl
  | cons c rest ih => exact hR.trans (hc w c) (ih (call w c).1)

theorem frame_tell (event : Event) (w : World n) (listener : Listener n) :
    R w (tell call i event w listener) :=
  hR.trans (frame_callAll hR hc (listener.calls event) w) (frame_post hR _ _ _)

theorem frame_dispatch (w : World n) (event : Event) : R w (dispatch call i w event) := by
  rw [dispatch_eq]
  split
  · exact hR.aside rfl rfl
  · have hmark : R w (w.mark i) := hR.aside rfl rfl
    exact hR.trans (hR.trans hmark (frame_foldl hR (frame_tell hR hc event) _ _))
      (hR.aside rfl rfl)

theorem frame_change {w : World n} {result : Except Error (Store × Commit)}
    (hstep : ∀ done, result = .ok done → w[i].store.Step done) :
    R w (change call w i result).1 := by
  cases result with
  | error e => exact hR.aside rfl rfl
  | ok done =>
      have hpublish : R w (w.publish i done.1 done.2) :=
        hR.trans (hR.own (.step (hstep done rfl))) (hR.aside rfl rfl)
      exact hR.trans hpublish (frame_foldl hR (frame_dispatch hR hc) _ _)

theorem frame_applyUpdates (updates : List (String × Value)) (report : Report) (w : World n) :
    R w (applyUpdates call i report w updates).1 := by
  induction updates generalizing report w with
  | nil => exact hR.aside rfl rfl
  | cons u rest ih =>
      have hu : R w (change call w i (w[i].store.update u.1 u.2)).1 :=
        frame_change hR hc fun _ hd => .update hd
      rw [applyUpdates]
      rcases hr : change call w i (w[i].store.update u.1 u.2) with ⟨w', e | r⟩
      · rw [hr] at hu
        exact hu
      · rw [hr] at hu
        exact hR.trans hu (ih _ w')

theorem frame_applyDocument (doc : Document) (w : World n) :
    R w (applyDocument call w i doc).1 := by
  have hplan : R w (w.setStore i (w[i].store.afterPlanning doc)) :=
    hR.own (Model.Evolves.refl.afterPlanning doc)
  have happly : R w (planAndApply call w i doc).1 := by
    simp only [planAndApply]
    split
    · exact hplan
    · exact hR.trans hplan (frame_applyUpdates hR hc _ _ _)
  simp only [applyDocument]
  split <;> next hr => rw [hr] at happly; exact hR.trans happly (hR.aside rfl rfl)

theorem frame_operate (op : Operation (Listener n)) (w : World n) :
    R w (operate call w i op).1 := by
  have hkeep : R w (w.setStore i w[i].store.keepSchema) := hR.own Model.Evolves.refl.keepSchema
  cases op with
  | add spec => exact frame_change hR hc fun _ hd => .add hd
  | update key value => exact frame_change hR hc fun _ hd => .update hd
  | remove key => exact frame_change hR hc fun _ hd => .remove hd
  | annotate key label => exact frame_change hR hc fun _ hd => .annotate hd
  | apply doc => exact frame_applyDocument hR hc doc w
  | look | submit => exact hR.aside rfl rfl
  | setLayout layout => exact hR.own (Model.Evolves.refl.setLayout layout)
  | schema => exact hkeep
  | full | delta => exact hR.trans hkeep (hR.aside rfl rfl)
  | register | unregister => exact hR.own (Model.Evolves.refl.setRegistry _)

theorem frame_answer (op : Operation (Listener n)) (w : World n) :
    R w (answer call w (i, op)).1 := by
  simp only [answer]
  split
  · exact hR.aside rfl rfl
  · exact frame_operate hR hc _ w

omit hR hc in
/-- Calls keep to a relation that allows the elementary steps of every model. -/
theorem frame_perform (hR : ∀ i, Frame R i) (depth : Nat) (w : World n) (c : Call n) :
    R w (perform depth w c).1 := by
  induction depth generalizing w c with
  | zero => exact (hR c.1).aside rfl rfl
  | succ depth ih => exact frame_answer (hR c.1) ih c.2 w

end World

end SharedState
