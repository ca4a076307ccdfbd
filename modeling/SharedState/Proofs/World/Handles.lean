import SharedState.Proofs.World.History

/-!
# The handles of a model

Handles are counted up and never come back: the handles that a model has given
out since it was new are 1, 2, 3 and so on, and the listeners that it has are
those whose handles were given out and not taken back. The answers tell all of
it, as they do of the revisions; `perform_registry` is why, and says besides
that nothing but registering and unregistering touches the listeners.
-/

namespace SharedState

variable {n : Nat}

namespace Registry

/-- The handles of the registered listeners, in the order of registration. -/
def handles (r : Registry n) : List Nat := r.listeners.map (·.1)

/-- Handles have been counted up. -/
structure Counted (r : Registry n) : Prop where
  ordered : r.handles.Pairwise (· < ·)
  given : ∀ handle ∈ r.handles, handle ≤ r.lastHandle

variable {r : Registry n}

theorem counted_empty : Counted ({} : Registry n) :=
  ⟨.nil, fun _ h => nomatch h⟩

theorem handles_register (r : Registry n) (listener : Listener n) :
    (r.register listener).1.handles = r.handles ++ [r.lastHandle + 1] := by
  rw [handles, register, List.map_append]
  rfl

theorem handles_unregister (r : Registry n) (handle : Nat) :
    (r.unregister handle).1.handles = r.handles.filter (· ≠ handle) := by
  rw [handles, handles, List.filter_map]
  rfl

theorem Counted.register (h : r.Counted) (listener : Listener n) :
    (r.register listener).1.Counted where
  ordered := by
    rw [handles_register]
    refine List.pairwise_append.2 ⟨h.ordered, List.pairwise_singleton .., ?_⟩
    intro handle hmem other hother
    have hle := h.given handle hmem
    rw [List.mem_singleton.1 hother]
    omega
  given := by
    intro handle hmem
    rw [handles_register, List.mem_append] at hmem
    rcases hmem with hmem | hmem
    · exact Nat.le_succ_of_le (h.given handle hmem)
    · exact Nat.le_of_eq (List.mem_singleton.1 hmem)

theorem Counted.unregister (h : r.Counted) (handle : Nat) :
    (r.unregister handle).1.Counted where
  ordered := by
    rw [handles_unregister]
    exact h.ordered.filter _
  given := by
    intro other hmem
    rw [handles_unregister] at hmem
    exact h.given other (List.mem_of_mem_filter hmem)

theorem unregister_found (r : Registry n) (handle : Nat) :
    (r.unregister handle).2 = true ↔ handle ∈ r.handles := by
  simp only [unregister, handles, List.any_eq_true, decide_eq_true_eq, List.mem_map]

end Registry

namespace Exchange

/-- The handle that was given out, if the exchange is a registration. -/
def handle? (x : Exchange n) : Option Nat :=
  match x.operation, x.reply with
  | .register _, .ok (.handle handle) => some handle
  | _, _ => none

/-- The exchange takes a handle back, if it was given out. -/
def ends (handle : Nat) (x : Exchange n) : Bool :=
  match x.operation, x.reply with
  | .unregister ended, .ok _ => ended = handle
  | _, _ => false

/-- The handles given out and not taken back. -/
def live (log : List (Exchange n)) : List Nat :=
  log.foldl (fun handles x => handles.filter (! x.ends ·) ++ x.handle?.toList) []

theorem live_concat (log : List (Exchange n)) (x : Exchange n) :
    live (log ++ [x]) = (live log).filter (! x.ends ·) ++ x.handle?.toList := by
  rw [live, List.foldl_append]
  rfl

/-- What an exchange makes of the registry of its model. -/
def register (x : Exchange n) (r : Registry n) : Registry n :=
  match x.operation, x.reply with
  | .register listener, .ok _ => (r.register listener).1
  | .unregister handle, .ok _ => (r.unregister handle).1
  | _, _ => r

end Exchange

namespace World

section operate

variable {call : World n → Call n → World n × Reply} {w : World n} {i : Fin n}
  {updates : List (String × Value)}

theorem change_registry (hc : RespectsMarks call) (w : World n) (i : Fin n)
    (result : Except Error (Store × Commit)) :
    (change call w i result).1[i].registry = w[i].registry := by
  cases result with
  | error e => rfl
  | ok done =>
      rw [change_getElem_self hc]
      rfl

theorem updateAll_registry (hc : RespectsMarks call) (w : World n) (i : Fin n)
    (updates : List (String × Value)) :
    (w.updateAll call i updates)[i].registry = w[i].registry := by
  induction updates generalizing w with
  | nil => rfl
  | cons u rest ih => exact (ih _).trans (change_registry hc w i _)

theorem applyDocument_registry (hc : RespectsMarks call) (hs : w[i].store.Sound)
    (doc : Document) : (applyDocument call w i doc).1[i].registry = w[i].registry := by
  by_cases href : w[i].store.Refuses doc
  · obtain ⟨e, happly⟩ := applyDocument_of_refuses call hs href
    rw [happly, count_getElem, setStore_getElem_self]
  · rw [applyDocument_of_not_refuses hc hs href, count_getElem, setStore_getElem_self]
    exact updateAll_registry hc w i _

theorem operate_registry (hc : RespectsMarks call) (hs : w[i].store.Sound)
    (op : Operation (Listener n)) :
    (operate call w i op).1[i].registry =
      Exchange.register ⟨op, (operate call w i op).2⟩ w[i].registry := by
  cases op with
  | add | update | remove | annotate => exact change_registry hc w i _
  | apply doc => exact applyDocument_registry hc hs doc
  | look | submit => rfl
  | setLayout | schema | full | delta =>
      simp only [operate, count_getElem, setStore_getElem_self]
      rfl
  | register | unregister =>
      simp only [operate, modify_eq_replace, replace_getElem_self]
      rfl

end operate

variable {m : Fin n} {w w' : World n} {log : List (Exchange n)}

theorem register_readDocument (op : Operation (Listener n)) (reply : Reply) :
    Exchange.register ⟨readDocument op, reply⟩ = Exchange.register ⟨op, reply⟩ := by
  cases op with
  | submit bytes =>
      simp only [readDocument]
      cases Document.parse? bytes <;> rfl
  | _ => rfl

/-- The answer tells what has become of the listeners. -/
theorem perform_registry (depth : Nat) (hs : w[m].store.Sound) (op : Operation (Listener n)) :
    (perform depth w (m, op)).1[m].registry =
      Exchange.register ⟨op, (perform depth w (m, op)).2⟩ w[m].registry := by
  rcases perform_eq_or depth w (m, op) with hp | ⟨below, hp⟩
  · rw [hp]
    cases op <;> rfl
  · rw [hp, ← register_readDocument]
    exact operate_registry (perform_respectsMarks below) hs _

/-- A registration that is not refused is answered with the next handle. -/
theorem perform_register {depth : Nat} {listener : Listener n} {outcome : Outcome}
    (h : (perform depth w (m, .register listener)).2 = .ok outcome) :
    perform depth w (m, .register listener) =
        (w.replace m { w[m] with registry := (w[m].registry.register listener).1 }, .ok outcome) ∧
      outcome = .handle (w[m].registry.lastHandle + 1) := by
  rcases perform_eq_or depth w (m, .register listener) with hp | ⟨below, hp⟩ <;> rw [hp] at h ⊢ <;>
    cases h
  exact ⟨rfl, rfl⟩

theorem perform_unregister {depth handle : Nat} {outcome : Outcome}
    (h : (perform depth w (m, .unregister handle)).2 = .ok outcome) :
    outcome = .unregistered (w[m].registry.unregister handle).2 := by
  rcases perform_eq_or depth w (m, .unregister handle) with hp | ⟨below, hp⟩ <;> rw [hp] at h <;>
    cases h
  rfl

/-- The answer tells which handles are left and which are new. -/
theorem perform_handles (depth : Nat) (hs : w[m].store.Sound) (op : Operation (Listener n)) :
    let x : Exchange n := ⟨op, (perform depth w (m, op)).2⟩
    let r := (perform depth w (m, op)).1[m].registry
    r.handles = w[m].registry.handles.filter (! x.ends ·) ++ x.handle?.toList ∧
      r.lastHandle = w[m].registry.lastHandle + x.handle?.toList.length ∧
      x.handle?.toList =
        List.range' (w[m].registry.lastHandle + 1) x.handle?.toList.length := by
  intro x r
  have hr : r = x.register w[m].registry := perform_registry depth hs op
  rw [hr]
  cases op with
  | register listener =>
      cases hreply : (perform depth w (m, .register listener)).2 with
      | error e =>
          simp [x, hreply, Exchange.register, Exchange.ends, Exchange.handle?]
      | ok outcome =>
          obtain ⟨-, rfl⟩ := perform_register hreply
          simp only [x, hreply, Exchange.register, Exchange.ends, Exchange.handle?,
            w[m].registry.handles_register, Bool.not_false, List.filter_true]
          exact ⟨rfl, rfl, rfl⟩
  | unregister handle =>
      cases hreply : (perform depth w (m, .unregister handle)).2 with
      | error e =>
          simp [x, hreply, Exchange.register, Exchange.ends, Exchange.handle?]
      | ok outcome =>
          simp only [x, hreply, Exchange.register, Exchange.ends, Exchange.handle?,
            w[m].registry.handles_unregister]
          refine ⟨?_, rfl, rfl⟩
          simp [eq_comm]
  | _ => simp [x, Exchange.register, Exchange.ends, Exchange.handle?]

theorem perform_counted (depth : Nat) (hs : w[m].store.Sound) (h : w[m].registry.Counted)
    (op : Operation (Listener n)) : (perform depth w (m, op)).1[m].registry.Counted := by
  rw [perform_registry depth hs op]
  unfold Exchange.register
  split
  · exact h.register _
  · exact h.unregister _
  · exact h

/-! ## Over a history -/

/-- The handles of a model that was new, as its answers tell of them. -/
theorem History.handles (h : History m w log w') {policy : Policy}
    (hnew : w[m] = Model.empty policy) :
    w'[m].registry.Counted ∧ w'[m].registry.handles = Exchange.live log ∧
      log.filterMap Exchange.handle? = List.range' 1 w'[m].registry.lastHandle := by
  have hsound : w[m].store.Sound := by
    rw [hnew]
    exact Store.sound_empty policy
  induction h with
  | start =>
      rw [hnew]
      exact ⟨Registry.counted_empty, rfl, rfl⟩
  | @exchange log w' depth op hist ih =>
      obtain ⟨hcounted, hlive, hgiven⟩ := ih
      have hs := hist.sound hsound
      obtain ⟨hhandles, hlast, hrange⟩ := perform_handles depth hs op
      have hone : ∀ x : Exchange n, [x].filterMap Exchange.handle? = x.handle?.toList := by
        intro x
        cases hx : x.handle? <;> simp [hx]
      refine ⟨perform_counted depth hs hcounted op, ?_, ?_⟩
      · rw [hhandles, hlive, Exchange.live_concat]
      · rw [List.filterMap_append, hgiven, hlast, ← List.range'_append_1, Nat.add_comm 1,
          ← hrange, hone]
  | elsewhere _ heq ih =>
      rw [heq]
      exact ih

end World

end SharedState
