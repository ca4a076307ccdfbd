import Mathlib
import SharedState.Proofs.World.Exchange
import SharedState.Proofs.World.Frame

/-!
# Histories of a model

A model is not alone in its world. Calls reach it from outside and from the
listeners of other models, at any level of calls inside calls, and in between
anything may happen elsewhere. A `History` is what all this looks like from the
model: the exchanges with it, one after another, in a world of which nothing is
known in between but that the model is as the last exchange left it.

That every run is such a history for each of its models is `history_run`. What
has to be shown for it is that a call to another model, with all the calls of
listeners under it, comes to a history for this one.
-/

namespace SharedState

namespace World

variable {n : Nat}

/-- The exchanges that a model has had since a world. -/
inductive History (m : Fin n) (w : World n) : List (Exchange n) → World n → Prop
  | start : History m w [] w
  | exchange {log w'} (depth : Nat) (op : Operation (Listener n)) : History m w log w' →
      History m w (log ++ [⟨op, (perform depth w' (m, op)).2⟩]) (perform depth w' (m, op)).1
  | elsewhere {log w' w''} : History m w log w' → w''[m] = w'[m] →
      History m w log w''

variable {m i : Fin n} {w w' w'' : World n} {log log' : List (Exchange n)}

theorem History.trans (h : History m w log w') (h' : History m w' log' w'') :
    History m w (log ++ log') w'' := by
  induction h' with
  | start => rwa [List.append_nil]
  | exchange depth op _ ih =>
      rw [← List.append_assoc]
      exact ih.exchange depth op
  | elsewhere _ heq ih => exact ih.elsewhere heq

/-- The model has gone from one state to the other by exchanges. -/
def Leads (m : Fin n) (w w' : World n) : Prop := ∃ log, History m w log w'

theorem Leads.of_eq (h : w'[m] = w[m]) : Leads m w w' :=
  ⟨[], History.start.elsewhere h⟩

theorem Leads.trans (h : Leads m w w') (h' : Leads m w' w'') : Leads m w w'' := by
  obtain ⟨log, h⟩ := h
  obtain ⟨log', h'⟩ := h'
  exact ⟨log ++ log', h.trans h'⟩

theorem leads_perform_self (depth : Nat) (w : World n) (op : Operation (Listener n)) :
    Leads m w (perform depth w (m, op)).1 :=
  ⟨_, History.start.exchange depth op⟩

theorem leads_foldl {α : Type} {f : World n → α → World n} (hf : ∀ w a, Leads m w (f w a))
    (l : List α) (w : World n) : Leads m w (l.foldl f w) := by
  induction l generalizing w with
  | nil => exact .of_eq rfl
  | cons a rest ih => exact (hf w a).trans (ih (f w a))

/-- What an operation on another model does itself is no exchange. -/
theorem leads_frame (h : i ≠ m) : Frame (Leads m) i where
  trans := .trans
  own _ := .of_eq (replace_getElem_of_ne h.symm)
  aside hmodels _ := .of_eq (getElem_of_models hmodels m)

theorem leads_perform (depth : Nat) (w : World n) (c : Call n) :
    Leads m w (perform depth w c).1 := by
  induction depth generalizing w c with
  | zero => exact .of_eq rfl
  | succ depth ih =>
      obtain ⟨i, op⟩ := c
      by_cases h : i = m
      · subst h
        exact leads_perform_self (depth + 1) w op
      · exact frame_answer (leads_frame h) ih op w

theorem history_run (m : Fin n) (w : World n) (calls : List (Call n)) :
    ∃ log, History m w log (w.run calls) :=
  leads_foldl (fun w c => leads_perform (n + 1) w c) calls w

/-- The exchanges in which operations are asked of one model from outside, one
after another, and the world after them. -/
def converse (w : World n) (m : Fin n) : List (Operation (Listener n)) →
    List (Exchange n) × World n
  | [] => ([], w)
  | op :: rest =>
    let (w', reply) := w.call (m, op)
    let (log, w'') := converse w' m rest
    (⟨op, reply⟩ :: log, w'')

theorem history_converse (m : Fin n) (w : World n) (ops : List (Operation (Listener n))) :
    History m w (w.converse m ops).1 (w.converse m ops).2 := by
  induction ops generalizing w with
  | nil => exact .start
  | cons op rest ih => exact (History.start.exchange (n + 1) op).trans (ih (w.call (m, op)).1)

/-! ## Free models

A call takes back the marks that it sets. So a model that is free before a call is
free after it, whatever the call and its outcome. -/

theorem free_perform (depth : Nat) (c : Call n) (hfree : m ∉ w.dispatching) :
    m ∉ (perform depth w c).1.dispatching := by
  rwa [(perform_respectsMarks depth).dispatching]

theorem free_converse (i : Fin n) (ops : List (Operation (Listener n)))
    (hfree : m ∉ w.dispatching) : m ∉ (w.converse i ops).2.dispatching := by
  induction ops generalizing w with
  | nil => exact hfree
  | cons op rest ih => exact ih (free_perform (n + 1) (i, op) hfree)

/-! ## What a history leaves -/

/-- A model goes through the commits that its exchanges tell of. -/
theorem History.evolves (h : History m w log w') (hs : w[m].store.Sound) :
    ∃ commits, w[m].Evolves commits w'[m] ∧
      commits.length = (log.map Exchange.commits).sum ∧
      commits.map (·.revision) = log.flatMap Exchange.revisions := by
  induction h with
  | start => exact ⟨[], .refl, rfl, rfl⟩
  | @exchange log w' depth op _ ih =>
      obtain ⟨commits, hev, hlen, hrev⟩ := ih
      obtain ⟨more, hev', hlen', hrev'⟩ := perform_explained depth (hev.sound hs) op
      refine ⟨commits ++ more, hev.trans hev', ?_, ?_⟩
      · rw [List.length_append, hlen, hlen', List.map_append, List.sum_append, List.map_singleton,
          List.sum_singleton]
      · rw [List.map_append, hrev, hrev', List.flatMap_append, List.flatMap_singleton]
  | elsewhere _ heq ih => rwa [heq]

theorem History.sound (h : History m w log w') (hs : w[m].store.Sound) :
    w'[m].store.Sound := by
  obtain ⟨commits, hev, -, -⟩ := h.evolves hs
  exact hev.sound hs

theorem History.evolves_of_quiet (h : History m w log w') (hs : w[m].store.Sound)
    (hquiet : (log.map Exchange.commits).sum = 0) : w[m].Evolves [] w'[m] := by
  obtain ⟨commits, hev, hlen, -⟩ := h.evolves hs
  rw [hquiet, List.length_eq_zero_iff] at hlen
  rwa [hlen] at hev

/-- The model has only been through exchanges since it was new. -/
def Reachable (m : Fin n) (w : World n) : Prop :=
  ∃ policy w₀, w₀[m] = Model.empty policy ∧ Leads m w₀ w

theorem start_getElem (policies : Vector Policy n) (m : Fin n) :
    (start policies)[m] = Model.empty (policies.get m) :=
  Vector.getElem_map Model.empty m.isLt

theorem reachable_run (policies : Vector Policy n) (calls : List (Call n)) (m : Fin n) :
    Reachable m ((start policies).run calls) :=
  ⟨_, start policies, start_getElem policies m, history_run m _ calls⟩

-- A run of fixed operations is decided with everything unfolded: `start` maps over a
-- vector, which goes by well-founded recursion and does not unfold otherwise.

/-- The only model of a new world after the given operations. -/
def alone (ops : List (Operation (Listener 1))) : World 1 :=
  ((start (.replicate 1 .ignore)).converse 0 ops).2

theorem reachable_alone (ops : List (Operation (Listener 1))) : Reachable 0 (alone ops) :=
  ⟨_, start (.replicate 1 .ignore), start_getElem _ 0, _, history_converse 0 _ ops⟩

theorem free_alone (ops : List (Operation (Listener 1))) : 0 ∉ (alone ops).dispatching :=
  free_converse 0 ops List.not_mem_nil

theorem Reachable.history (h : Reachable m w) (h' : History m w log w') : Reachable m w' := by
  obtain ⟨policy, w₀, hnew, hlead⟩ := h
  exact ⟨policy, w₀, hnew, hlead.trans ⟨log, h'⟩⟩

theorem Reachable.sound (h : Reachable m w) : w[m].store.Sound := by
  obtain ⟨policy, w₀, hnew, log, hlog⟩ := h
  have hs : w₀[m].store.Sound := by
    rw [hnew]
    exact Store.sound_empty policy
  obtain ⟨commits, hev, -, -⟩ := hlog.evolves hs
  exact hev.sound hs

/-- The watch of a model shows its revision. -/
theorem Reachable.watch (h : Reachable m w) : w[m].watch = .start w[m].store.revision := by
  obtain ⟨policy, w₀, hnew, log, hlog⟩ := h
  have hs : w₀[m].store.Sound := by
    rw [hnew]
    exact Store.sound_empty policy
  have hwatch : w₀[m].watch = .start w₀[m].store.revision := by
    rw [hnew]
    rfl
  obtain ⟨commits, hev, -, -⟩ := hlog.evolves hs
  exact hev.watch hwatch

end World

end SharedState
