import SharedState.Proofs.Store.Observer
import SharedState.Proofs.World.History

/-!
# Deltas converge

An observer of a model takes a delta now and then, and in between the model
goes through any history at all. However the two are interleaved, one more delta
makes the observer's copy exact.
-/

namespace SharedState

variable {n : Nat}

namespace Observer

theorem Behind.evolves {o : Observer} {a b : Model n} {commits : List Commit}
    (h : o.Behind a.store) (he : a.Evolves commits b) : o.Behind b.store := by
  induction he with
  | refl => exact h
  | commit _ hs ih => exact ih.step hs
  | keepSchema _ ih => exact ih.congr rfl rfl
  | setLayout _ _ ih => exact ih.congr rfl rfl
  | setRegistry _ _ ih => exact ih

end Observer

namespace World

variable {m : Fin n} {w w₀ w' : World n} {o o₀ : Observer} {log : List (Exchange n)}

theorem operate_delta (call : World n → Call n → World n × Reply) (w : World n) (m : Fin n)
    (since : Nat) :
    operate call w m (.delta since) =
      ((w.setStore m w[m].store.keepSchema).count (·.countDelta),
        .ok (.document (w[m].store.deltaDocument since))) := rfl

theorem perform_delta_of_free (depth : Nat) (since : Nat) (hfree : m ∉ w.dispatching) :
    perform (depth + 1) w (m, .delta since) =
      ((w.setStore m w[m].store.keepSchema).count (·.countDelta),
        .ok (.document (w[m].store.deltaDocument since))) := by
  rw [perform, answer_of_free hfree]
  exact operate_delta ..

/-- Whoever gets a delta gets that of the store as it is, and the store stays
so but for the schema it keeps. -/
theorem perform_delta {depth since : Nat} {doc : Document}
    (h : (perform depth w (m, .delta since)).2 = .ok (.document doc)) :
    doc = w[m].store.deltaDocument since ∧
      (perform depth w (m, .delta since)).1[m].store =
        w[m].store.keepSchema := by
  rcases perform_eq_or depth w (m, .delta since) with hp | ⟨below, hp⟩
  · rw [hp] at h
    cases h
  · have hdelta : perform depth w (m, .delta since) =
        operate (perform below) w m (.delta since) := hp
    rw [hdelta, operate_delta] at h ⊢
    cases h
    rw [count_getElem, setStore_getElem_self]
    exact ⟨rfl, rfl⟩

/-- An observer of a model and the world as they go on together: the model has
exchanges with whomever, and the observer syncs whenever it gets a delta. -/
inductive Observed (m : Fin n) (w₀ : World n) (o₀ : Observer) : World n → Observer → Prop
  | start : Observed m w₀ o₀ w₀ o₀
  | history {w w' : World n} {o : Observer} {log : List (Exchange n)} :
      Observed m w₀ o₀ w o → History m w log w' → Observed m w₀ o₀ w' o
  | sync {w : World n} {o : Observer} {depth : Nat} {doc : Document} : Observed m w₀ o₀ w o →
      (perform depth w (m, .delta o.revision)).2 = .ok (.document doc) →
      Observed m w₀ o₀ (perform depth w (m, .delta o.revision)).1 (o.sync doc)

theorem Observed.behind (h : Observed m w₀ o₀ w o) (hr : Reachable m w₀)
    (ho : o₀.Behind w₀[m].store) : Reachable m w ∧ o.Behind w[m].store := by
  induction h with
  | start => exact ⟨hr, ho⟩
  | history _ hist ih =>
      obtain ⟨hreach, hbehind⟩ := ih
      obtain ⟨commits, hev, -, -⟩ := hist.evolves hreach.sound
      exact ⟨hreach.history hist, hbehind.evolves hev⟩
  | @sync w o depth doc _ hdoc ih =>
      obtain ⟨hreach, hbehind⟩ := ih
      obtain ⟨hdelta, hstore⟩ := perform_delta hdoc
      refine ⟨hreach.history (History.start.exchange depth _), ?_⟩
      rw [hstore, hdelta]
      exact (hbehind.sync hreach.sound).behind.congr rfl rfl

/-- An observer whose copy of a model was exact once, or who starts with nothing
at revision zero, has an exact copy after the next delta, whatever the model
has been through and however often the observer has synced. -/
theorem delta_converges (hr : Reachable m w₀)
    (ho : o₀.Exact w₀[m].store ∨ o₀ = ⟨0, .empty⟩) (h : Observed m w₀ o₀ w o)
    (hfree : m ∉ w.dispatching) (depth : Nat) :
    ∃ doc, (perform (depth + 1) w (m, .delta o.revision)).2 = .ok (.document doc) ∧
      doc.revision = w[m].store.revision ∧ (o.sync doc).Exact w[m].store := by
  have ho' : o₀.Behind w₀[m].store := by
    rcases ho with hexact | hzero
    · exact hexact.behind
    · rw [hzero]
      exact Observer.behind_zero hr.sound
  obtain ⟨hreach, hbehind⟩ := h.behind hr ho'
  refine ⟨w[m].store.deltaDocument o.revision, ?_, rfl, hbehind.sync hreach.sound⟩
  rw [perform_delta_of_free depth _ hfree]

/-- What a test bench does before the observer first looks. -/
def before : List (Operation (Listener 1)) :=
  [.add { key := "gain", value := .integer 1 }, .add { key := "mode", value := .string "a" }]

/-- What it does behind the observer's back: one element is replaced by one of
another kind, the other one is hidden. -/
def behindBack : List (Operation (Listener 1)) :=
  [.remove "gain", .add { key := "gain", value := .boolean true }, .remove "mode",
   .add { key := "mode", value := .string "a", exposed := false },
   .add { key := "tone", value := .integer 7 }]

theorem delta_converges_behindBack :
    let w₁ := ((start (.replicate 1 .ignore)).converse 0 before).2
    let o₁ := Observer.sync ⟨0, .empty⟩ (w₁[(0 : Fin 1)].store.deltaDocument 0)
    let w₂ := (perform 2 w₁ (0, .delta 0)).1
    let w₃ := (w₂.converse 0 behindBack).2
    ∃ doc, (perform 2 w₃ (0, .delta o₁.revision)).2 = .ok (.document doc) ∧
      (o₁.sync doc).values.find? "gain" = some (.bool true) ∧
      (o₁.sync doc).values.find? "mode" = none ∧ (o₁.sync doc).revision = 7 := by
  intro w₁ o₁ w₂ w₃
  have hreach : Reachable 0 (start (.replicate 1 .ignore)) :=
    ⟨_, _, start_getElem (.replicate 1 .ignore) 0, _, .start⟩
  have hfree : (0 : Fin 1) ∉ w₁.dispatching := free_converse 0 before List.not_mem_nil
  have hfirst : (perform 2 w₁ (0, .delta 0)).2 =
      .ok (.document (w₁[(0 : Fin 1)].store.deltaDocument 0)) :=
    congrArg Prod.snd (perform_delta_of_free 1 0 hfree)
  have hobserved : Observed 0 (start (.replicate 1 .ignore)) ⟨0, .empty⟩ w₃ o₁ :=
    ((Observed.start.history (history_converse 0 _ before)).sync hfirst).history
      (history_converse 0 _ behindBack)
  have hfree' : (0 : Fin 1) ∉ w₃.dispatching :=
    free_converse 0 behindBack (free_perform 2 (0, .delta 0) hfree)
  have hgain : w₃[(0 : Fin 1)].store.exposed? "gain" =
      some ⟨"gain", .boolean true, .unconstrained, none, 4, true⟩ := by with_unfolding_all decide
  have hmode : w₃[(0 : Fin 1)].store.exposed? "mode" = none := by with_unfolding_all decide
  have hseven : w₃[(0 : Fin 1)].store.revision = 7 := by with_unfolding_all decide
  clear_value w₃ o₁
  obtain ⟨doc, hdoc, -, hexact⟩ := delta_converges hreach (.inr rfl) hobserved hfree' 1
  refine ⟨doc, hdoc, ?_, ?_, ?_⟩
  · rw [hexact.values, hgain]
    rfl
  · rw [hexact.values, hmode]
    rfl
  · rw [hexact.revision, hseven]

end World

end SharedState
