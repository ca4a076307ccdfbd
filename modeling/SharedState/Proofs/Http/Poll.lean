import SharedState.Proofs.Http.Loop

/-!
# What an observer who waits is told

An observer asks for what changed after a revision, and is answered with a
delta, or that there is nothing new. The second answer is given when no exposed
element bears a stamp beyond the revision, and what an observer can conclude
from it is what old stamps mean: every element that is exposed now is in its
copy as it is now. It cannot conclude that its copy is exact. A removal leaves
no stamp behind, so a key may be in the copy that the model does not expose any
more; that is the only way for the copy to be wrong.
-/

namespace SharedState

variable {n : Nat}

namespace World

variable {m : Fin n} {w w' : World n}

/-! ## What is answered -/

/-- A client that waits is answered, with the delta if an exposed element was
touched after its revision and otherwise with nothing. -/
theorem answerChanges_of_sound (hs : w[m].store.Sound)
    (hwatch : w[m].watch = .start w[m].store.revision) (hfree : m ∉ w.dispatching)
    (settings : Settings) (query : Http.ChangesQuery) :
    ∃ w', Untouched m w w' ∧
      (w[m].store.TouchedAfter query.revision → Http.answerChanges settings w m query =
        (w', some (.json 200 (w[m].store.deltaDocument query.revision).render))) ∧
      (¬ w[m].store.TouchedAfter query.revision → Http.answerChanges settings w m query =
        (w', some (.bare 204))) := by
  obtain ⟨waits, w', response, hpolls, hturns, hdelta, hquiet⟩ :=
    polls_of_sound hs hwatch hfree query.revision
  have hanswer := answerChanges_of_polls hwatch hpolls hturns settings
  refine ⟨w', hpolls.counted.1, fun htouched => ?_, fun htouched => ?_⟩
  · rw [hanswer, (hdelta htouched).2]
  · rw [hanswer, (hquiet htouched).1]

theorem answerChanges_eq (hr : Reachable m w) (hfree : m ∉ w.dispatching)
    (settings : Settings) (query : Http.ChangesQuery) :
    ∃ w', Untouched m w w' ∧
      (w[m].store.TouchedAfter query.revision → Http.answerChanges settings w m query =
        (w', some (.json 200 (w[m].store.deltaDocument query.revision).render))) ∧
      (¬ w[m].store.TouchedAfter query.revision → Http.answerChanges settings w m query =
        (w', some (.bare 204))) :=
  answerChanges_of_sound hr.sound hr.watch hfree settings query

/-- A request for what changed is answered as a wait is. -/
theorem answer_changes {settings : Settings} {request : Http.Request}
    {query : Http.ChangesQuery} (hget : request.method = "GET")
    (hpath : request.path = Http.Route.changes.path)
    (hquery : Http.ChangesQuery.read? request.query = some query) (w : World n) (m : Fin n) :
    Http.answer settings w m request = Http.answerChanges settings w m query := by
  have hroute : Http.Route.ofPath? Http.Route.changes.path = some .changes := by decide
  have hmethod : ¬ "GET" = "OPTIONS" := by decide
  have hsame : "GET" = Http.Route.changes.method := rfl
  simp only [Http.answer, hget, hpath, hroute, if_neg hmethod, if_pos hsame, Http.answerAt, hquery]

/-! ## What the answer is worth -/

/-- An observer whose copy of a model was exact at a revision asks for what
changed after it. Once an exposed element was touched, it gets the delta. Until
then it is told that there is nothing new, and what is exposed now is in its
copy as it is now; so the copy is still exact, unless it has a key that is not
exposed any more. -/
theorem poll_answers {w₀ : World n} {log : List (Exchange n)} (hr : Reachable m w₀)
    {o : Observer} (ho : o.Exact w₀[m].store) (h : History m w₀ log w)
    (hfree : m ∉ w.dispatching) {request : Http.Request} {query : Http.ChangesQuery}
    (hget : request.method = "GET") (hpath : request.path = Http.Route.changes.path)
    (hquery : Http.ChangesQuery.read? request.query = some query)
    (hrev : query.revision = o.revision) (settings : Settings) :
    let s := w[m].store
    let result := Http.answer settings w m request
    Untouched m w result.1 ∧
      (s.TouchedAfter o.revision →
        result.2 = some (.json 200 (s.deltaDocument o.revision).render)) ∧
      (¬ s.TouchedAfter o.revision →
        result.2 = some (.bare 204) ∧
        (∀ key e, s.exposed? key = some e → o.values.find? key = some e.value.toWire) ∧
        ((∀ key, o.values.find? key = (s.exposed? key).map (·.value.toWire)) ↔
          ∀ key, (o.values.find? key).isSome → (s.exposed? key).isSome)) := by
  intro s result
  obtain ⟨commits, hev, -, -⟩ := h.evolves hr.sound
  have hbehind : o.Behind s := ho.behind.evolves hev
  obtain ⟨w', huntouched, htouched, hquiet⟩ :=
    answerChanges_eq (hr.history h) hfree settings query
  have hresult : result = Http.answerChanges settings w m query :=
    answer_changes hget hpath hquery w m
  rw [hrev] at htouched hquiet
  refine ⟨?_, ?_, ?_⟩
  · rw [hresult]
    by_cases hnew : s.TouchedAfter o.revision
    · rwa [htouched hnew]
    · rwa [hquiet hnew]
  · intro hnew
    rw [hresult, htouched hnew]
  · intro hnone
    have hheld : ∀ key e, s.exposed? key = some e →
        o.values.find? key = some e.value.toWire := by
      intro key e hx
      apply hbehind.held hx
      exact Nat.not_lt.1 fun hnew => hnone ⟨key, e, hx, hnew⟩
    refine ⟨by rw [hresult, hquiet hnone], hheld, ?_, ?_⟩
    · intro hexact key hkey
      rwa [hexact key, Option.isSome_map] at hkey
    · intro hknown key
      cases hx : s.exposed? key with
      | some e => exact hheld key e hx
      | none =>
          rw [Option.map_none, ← Option.not_isSome_iff_eq_none]
          intro hkey
          have hx' := hknown key hkey
          rw [hx] at hx'
          cases hx'

/-- A model with two exposed elements, as an observer finds it. -/
def watched : World 1 :=
  alone
    [.add { key := "gain", value := .integer 1 }, .add { key := "tone", value := .boolean true }]

/-- The observer after its first look. -/
def watcher : Observer :=
  Observer.sync ⟨0, .empty⟩ (watched[Fin.last 0].store.deltaDocument 0)

/-- What the observer asks for then. -/
def watcherRequest : Http.Request where
  method := "GET"
  target := "/getExposedModelUpdate?revision=2&timeout_ms=1".toList

theorem watcher_exact : watcher.Exact watched[(0 : Fin 1)].store :=
  (Observer.behind_zero (reachable_alone _).sound).sync (reachable_alone _).sound

/-- Changes of elements that the observer does not see. -/
def hiddenChanges : List (Operation (Listener 1)) :=
  [.add { key := "probe", value := .integer 7, exposed := false },
   .update "probe" (.integer 8)]

theorem poll_answers_hiddenChanges :
    let w := (watched.converse 0 hiddenChanges).2
    w[(0 : Fin 1)].store.revision = 4 ∧
      (Http.answer {} w 0 watcherRequest).2 = some (.bare 204) ∧
      ∀ key, watcher.values.find? key =
        (w[(0 : Fin 1)].store.exposed? key).map (·.value.toWire) := by
  intro w
  have hpath : watcherRequest.path = Http.Route.changes.path := by decide
  have hquery : Http.ChangesQuery.read? watcherRequest.query =
      some ⟨2, some (.ofMilliseconds 1)⟩ := by decide
  have htwo : watcher.revision = 2 := by with_unfolding_all decide
  have hrev : w[(0 : Fin 1)].store.revision = 4 := by with_unfolding_all decide
  have hfree : (0 : Fin 1) ∉ w.dispatching := free_converse 0 hiddenChanges (free_alone _)
  have hnoop : (w[(0 : Fin 1)].store.deltaDocument 2).isNoop = true := by with_unfolding_all decide
  have hkeys : ∀ entry ∈ watcher.values.entries,
      (w[(0 : Fin 1)].store.exposed? entry.1).isSome = true := by with_unfolding_all decide
  have hhist : History 0 watched (watched.converse 0 hiddenChanges).1 w :=
    history_converse 0 watched hiddenChanges
  have hsound := ((reachable_alone _).history hhist).sound
  clear_value w
  have hquiet : ¬ w[(0 : Fin 1)].store.TouchedAfter watcher.revision := by
    rw [htwo]
    exact (isNoop_deltaDocument hsound 2).1 hnoop
  obtain ⟨-, -, hanswer⟩ := poll_answers (reachable_alone _) watcher_exact hhist hfree rfl
    hpath hquery htwo.symm {}
  obtain ⟨hnothing, -, hexact⟩ := hanswer hquiet
  refine ⟨hrev, hnothing, hexact.2 ?_⟩
  intro key hkey
  obtain ⟨value, hvalue⟩ := Option.isSome_iff_exists.1 hkey
  exact hkeys (key, value) (watcher.values.mem_entries_iff.2 hvalue)

/-- A removal is not told: the observer goes on holding a key that the model
does not have any more. -/
theorem poll_sleeps_through_removal :
    let w := (perform 2 watched (0, .remove "tone")).1
    watcher.Exact watched[(0 : Fin 1)].store ∧
      (Http.answer {} w 0 watcherRequest).2 = some (.bare 204) ∧
      watcher.values.find? "tone" = some (.bool true) ∧
      w[(0 : Fin 1)].store.exposed? "tone" = none := by
  refine ⟨watcher_exact, ?_, ?_, ?_⟩
  · with_unfolding_all decide
  · with_unfolding_all decide
  · with_unfolding_all decide

end World

end SharedState
