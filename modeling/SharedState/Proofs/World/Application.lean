import SharedState.Proofs.World.History

/-!
# Applying a document is all or nothing

A document either is refused, and then nothing has happened, or it comes to the
very same as asking for its updates one by one: the same replies would have
been given, the same listeners told of the same events in the same order with
the same answers to what they did about it, and the same store is left. What
is planned against the store before the batch is right for the store in the
middle of it, and that holds whatever the listeners do in between, for they
cannot reach a model that is marked.
-/

namespace SharedState

namespace World

variable {n : Nat} {m : Fin n} {w : World n} {updates : List (String × Value)}

/-- The calls that ask a model for updates one by one. -/
def updateCalls (m : Fin n) (updates : List (String × Value)) : List (Call n) :=
  updates.map fun u => (m, .update u.1 u.2)

/-- The update calls of a batch that is taken do what the batch does, and are
answered with one revision after the other. -/
theorem callAll_updateCalls (depth : Nat) (hs : w[m].store.Sound)
    (ht : w[m].store.Takes updates) (hfree : m ∉ w.dispatching) :
    callAll (perform (depth + 1)) w (updateCalls m updates) =
      (w.updateAll (perform depth) m updates,
        (List.range' (w[m].store.revision + 1) updates.length).map
          fun revision => .ok (.revision revision)) := by
  induction updates generalizing w with
  | nil => rfl
  | cons u rest ih =>
      have hc := perform_respectsMarks (n := n) depth
      obtain ⟨done, hd, hs', ht'⟩ := hs.first ht
      obtain ⟨hrev, hcommit, -, -⟩ := (Store.Step.update hd).counts
      have hstore := change_store hc w m done
      have hanswer : perform (depth + 1) w (m, .update u.1 u.2) =
          ((change (perform depth) w m (.ok done)).1, .ok (.revision done.2.revision)) := by
        rw [perform, answer_of_free hfree]
        show replyRevision (change _ w m (w[m].store.update u.1 u.2)) = _
        rw [hd]
        rfl
      have hfree' : m ∉ (change (perform depth) w m (.ok done)).1.dispatching := by
        rw [change_dispatching hc]
        exact hfree
      have hrest := ih (hstore ▸ hs') (hstore ▸ ht') hfree'
      rw [updateAll_cons hd]
      show callAll _ w ((m, .update u.1 u.2) :: updateCalls m rest) = _
      simp only [callAll, hanswer, hrest, hstore, hrev, hcommit, List.length_cons,
        List.range'_succ, List.map_cons]

/-- A document is refused exactly for the reasons of `Store.Refuses`, and then
leaves no trace. Otherwise applying it does what its updates would do, asked for
one by one; of the planning no more is left than the schema that comparing
shapes makes the store keep. For each key the last of its values stays. -/
theorem apply_all_or_nothing (hr : Reachable m w) (hfree : m ∉ w.dispatching) (depth : Nat)
    (doc : Document) :
    let s := w[m].store
    let updates := s.updatesFor doc.state
    let result := perform (depth + 1) w (m, .apply doc)
    let single := callAll (perform (depth + 1)) w (updateCalls m updates)
    (s.Refuses doc → (∃ e, result.2 = .error e) ∧ Untouched m w result.1) ∧
      (¬ s.Refuses doc →
        result.1 = (single.1.setStore m (single.1[m].store.afterPlanning doc)).count
          (·.countApply true) ∧
        result.2 = .ok (.report (s.reportFor doc)) ∧
        single.2 = (List.range' (s.revision + 1) updates.length).map
          (fun revision => .ok (.revision revision)) ∧
        ∀ key value, updates.reverse.lookup key = some value →
          ∃ e, result.1[m].store.elements.find? key = some e ∧ e.value = value) := by
  intro s updates result single
  have hc := perform_respectsMarks (n := n) depth
  have hs : s.Sound := hr.sound
  have hresult : result = applyDocument (perform depth) w m doc := answer_of_free hfree
  constructor
  · intro href
    obtain ⟨e, happly⟩ := applyDocument_of_refuses (perform depth) hs href
    have herr : result.2 = .error e := by rw [hresult, happly]
    exact ⟨⟨e, herr⟩, perform_untouched (depth + 1) hs herr⟩
  · intro href
    have ht := Store.takes_of_not_refuses href
    have happly := hresult.trans (applyDocument_of_not_refuses hc hs href)
    have hsingle : single = _ := callAll_updateCalls depth hs ht hfree
    refine ⟨?_, ?_, ?_, ?_⟩
    · rw [happly, hsingle]
    · rw [happly]
    · rw [hsingle]
    · intro key value hv
      obtain ⟨e, stamp, -, he⟩ := Store.find?_updateAll hs ht hv
      refine ⟨{ e with value, lastModified := stamp }, ?_, rfl⟩
      rw [hresult, applyDocument_store hc hs href, Store.afterPlanning_elements]
      exact he

/-- A listener that answers every event with an update of a model. -/
def meddler {n : Nat} (m : Fin n) : Listener n :=
  .mk .all (fun _ => [(m, .update "gain" (.integer 9))]) none

/-- A model with an exposed and a hidden element, and a listener that calls
back into it. -/
def meddled : World 1 :=
  alone
    [.add { key := "gain", value := .integer 1, constraint := .range (.integer 0) (.integer 8) },
     .add { key := "mode", value := .string "a", exposed := false },
     .register (meddler (.last 0))]

theorem apply_all_or_nothing_meddled :
    let good : Document := {
      state := [⟨"gain", .string "4"⟩, ⟨"mode", .string "b"⟩, ⟨"gain", .string " 5 "⟩] }
    let bad : Document := { state := [⟨"gain", .string "4"⟩, ⟨"gain", .string "9"⟩] }
    (perform 2 meddled (0, .apply good)).2 = .ok (.report ⟨["gain", "gain"], ["mode"], 4⟩) ∧
      Untouched 0 meddled (perform 2 meddled (0, .apply bad)).1 := by
  intro good bad
  have hreach : Reachable 0 meddled := reachable_alone _
  have hfree : (0 : Fin 1) ∉ meddled.dispatching := free_alone _
  have hgood : ¬ meddled[(0 : Fin 1)].store.Refuses good := by
    have hplan : meddled[(0 : Fin 1)].store.plan good =
        .ok ⟨[("gain", .integer 4), ("gain", .integer 5)], ["mode"]⟩ := by with_unfolding_all decide
    exact (hreach.sound.plan_eq_ok_iff.1 hplan).1
  have hbad : meddled[(0 : Fin 1)].store.Refuses bad := by
    have hentry : (⟨"gain", .string "9"⟩ : Entry) ∈ bad.state := by decide
    have hgain : meddled[(0 : Fin 1)].store.exposed? "gain" =
        some ⟨"gain", .integer 1, .range (.integer 0) (.integer 8), none, 1, true⟩ := by
      with_unfolding_all decide
    have hread : Value.ofWire "gain" .integer (.string "9") = .ok (.integer 9) := by
      decide
    exact .inadmissible hentry hgain hread (by decide)
  have hreport : meddled[(0 : Fin 1)].store.reportFor good =
      ⟨["gain", "gain"], ["mode"], 4⟩ := by with_unfolding_all decide
  obtain ⟨-, happlied⟩ := apply_all_or_nothing hreach hfree 1 good
  obtain ⟨hrefused, -⟩ := apply_all_or_nothing hreach hfree 1 bad
  obtain ⟨-, hreply, -, -⟩ := happlied hgood
  rw [hreport] at hreply
  exact ⟨hreply, (hrefused hbad).2⟩

end World

end SharedState
