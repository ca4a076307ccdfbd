import SharedState.Proofs.Store.Emission
import SharedState.Proofs.World.Restoration

/-!
# What a model emits it can read back

A document that a model answers with is sent as bytes, and the bytes come back to
the model while it is still what it was: nothing was committed in between,
although the layout may have been set again and listeners may have come and gone.
The bytes are then accepted as a document of the model's own, with all of the
entries applied, under either policy.

They are, that is, if they can be read at all. A layout can be set that nests as
deep as a reader goes down; in the document it stands one level deeper, and from
then on the model refuses every document of its own. That is the only way in which
a document can fail to come back.
-/

namespace SharedState

namespace World

variable {n : Nat} {m : Fin n} {w w' : World n} {doc : Document} {op : Operation (Listener n)}
  {depth : Nat}

/-! ## Between a document and the next commit -/

/-- A model that is not telling its listeners of anything answers with a document
of its store whenever it is asked for one. -/
theorem answers_with_document (hfree : m ∉ w.dispatching)
    (hop : op = .full ∨ ∃ since, op = .delta since) (depth : Nat) :
    ∃ wanted, (perform (depth + 1) w (m, op)).2 =
      .ok (.document (w[m].store.documentOf wanted)) := by
  rw [perform, answer_of_free hfree]
  rcases hop with rfl | ⟨since, rfl⟩
  · exact ⟨_, rfl⟩
  · exact ⟨_, rfl⟩

/-- Answering with a document commits nothing. -/
theorem evolves_of_document (hs : w[m].store.Sound)
    (h : (perform depth w (m, op)).2 = .ok (.document doc)) :
    w[m].Evolves [] (perform depth w (m, op)).1[m] := by
  obtain ⟨commits, hev, -, hrevisions⟩ := perform_explained depth hs op
  rw [h] at hrevisions
  rw [List.map_eq_nil_iff.1 hrevisions] at hev
  exact hev

/-! ## Submissions -/

theorem submit_of_parse {bytes : ByteArray} (hfree : m ∉ w.dispatching)
    (h : Document.parse? bytes = some doc) :
    perform (depth + 1) w (m, .submit bytes) = applyDocument (perform depth) w m doc :=
  perform_of_readDocument hfree (by simp only [readDocument, h]) depth

theorem submit_of_not_parse {bytes : ByteArray} (hfree : m ∉ w.dispatching)
    (h : Document.parse? bytes = none) :
    (perform (depth + 1) w (m, .submit bytes)).2 = .error .malformedDocument := by
  rw [perform, answer_of_free hfree]
  simp only [readDocument, h]
  rfl

variable {s : Store} {wanted : Element → Bool}

/-- A model takes every document of a store that holds the same elements. -/
theorem applyDocument_own (hs : s.Sound) (ht : w[m].store.Sound)
    (he : w[m].store.elements = s.elements) :
    (applyDocument (perform depth) w m (s.documentOf wanted)).2 =
      .ok (.report ⟨(s.documentOf wanted).keys, [],
        w[m].store.revision + (s.documentOf wanted).keys.length⟩) := by
  have href : ¬ w[m].store.Refuses (s.documentOf wanted) :=
    (hs.compatible_of_elements he).not_refuses hs
  rw [applyDocument_of_not_refuses (perform_respectsMarks depth) ht href,
    hs.reportFor_documentOf he]

/-- It takes the bytes of the document as well, if they can be read. -/
theorem submit_own (hs : s.Sound) (hword : s.revision ≤ Text.maxWord)
    (ht : w[m].store.Sound) (he : w[m].store.elements = s.elements)
    (hrev : w[m].store.revision = s.revision) (hfree : m ∉ w.dispatching) (depth : Nat) :
    (perform (depth + 1) w (m, .submit (s.documentOf wanted).toBytes)).2 =
      if s.layout.depth < Json.maxDepth then
        .ok (.report ⟨(s.documentOf wanted).keys, [],
          s.revision + (s.documentOf wanted).keys.length⟩)
      else .error .malformedDocument := by
  by_cases hdepth : s.layout.depth < Json.maxDepth
  · have hparse : Document.parse? (s.documentOf wanted).toBytes =
        some ((s.setLayout s.layout.canonical).documentOf wanted) :=
      (hs.parse?_toBytes hword).trans (if_pos hdepth)
    -- the document is that of a store with another layout, which nothing else depends on
    rw [submit_of_parse hfree hparse, applyDocument_own (hs.setLayout s.layout.canonical) ht he,
      if_pos hdepth, hrev]
    rfl
  · have hparse : Document.parse? (s.documentOf wanted).toBytes = none :=
      (hs.parse?_toBytes hword).trans (if_neg hdepth)
    rw [submit_of_not_parse hfree hparse, if_neg hdepth]

/-- A model answers with a document whenever it is asked for one. The bytes of the
document are read as the document, with its layout in order, if the layout nests
less deep than a reader goes, and are not read at all otherwise. As long as nothing
has been committed since, the model accepts them in the first case, applies all of
the entries and passes over none; in the other case it refuses them as no document.
-/
theorem emitted_read_back (hr : Reachable m w) (hfree : m ∉ w.dispatching)
    (hword : w[m].store.revision ≤ Text.maxWord)
    (hop : op = .full ∨ ∃ since, op = .delta since) (depth : Nat) :
    ∃ doc, (perform (depth + 1) w (m, op)).2 = .ok (.document doc) ∧
      doc.layout = w[m].store.layout ∧
      Document.parse? doc.toBytes =
        (if doc.layout.depth < Json.maxDepth then
          some { doc with layout := doc.layout.canonical }
        else none) ∧
      ∀ {log w'}, History m (perform (depth + 1) w (m, op)).1 log w' →
        (log.map Exchange.commits).sum = 0 → m ∉ w'.dispatching → ∀ depth',
          (perform (depth' + 1) w' (m, .submit doc.toBytes)).2 =
            if doc.layout.depth < Json.maxDepth then
              .ok (.report ⟨doc.keys, [], doc.revision + doc.keys.length⟩)
            else .error .malformedDocument := by
  have hs := hr.sound
  obtain ⟨wanted, hdoc⟩ := answers_with_document hfree hop depth
  refine ⟨w[m].store.documentOf wanted, hdoc, rfl, hs.parse?_toBytes hword, ?_⟩
  intro log w' hlog hquiet hfree' depth'
  have hfirst := evolves_of_document hs hdoc
  have hev := hfirst.trans (hlog.evolves_of_quiet (hfirst.sound hs) hquiet)
  exact submit_own hs hword (hev.sound hs) hev.elements hev.revisions.1 hfree' depth'

/-- Arrays inside each other, the innermost one empty. -/
def nestedArrays : Nat → Json
  | 0 => .array []
  | k + 1 => .array [nestedArrays k]

theorem depth_nestedArrays (k : Nat) : (nestedArrays k).depth = k + 1 := by
  induction k with
  | zero => rfl
  | succ k ih =>
      show max (nestedArrays k).depth 0 + 1 = k + 2
      rw [ih, Nat.max_zero]

/-- A model that refuses unknown keys, with a key that has to be escaped, values of
which JSON has no numbers, a hidden element, and the deepest layout that can be read
back. -/
def emitter : World 1 :=
  ((start (.replicate 1 .reject)).converse (.last 0)
    [.add { key := "a\"\n\x01é", value := .float .nan, label := some "\\" },
     .add { key := "gain", value := .float .zero,
            constraint := .range (.float (.infinite true)) (.float .zero) },
     .add { key := "secret", value := .integer 3, exposed := false },
     .add { key := "blob", value := .bytes [0, 255, 7] },
     .add { key := "view", value := .viewer .standard },
     .setLayout (nestedArrays 125)]).2

/-- What the emitter is asked in between: its layout is set again, and an addition
is refused. -/
def quietly : List (Operation (Listener 1)) :=
  [.setLayout .null, .add { key := "gain", value := .integer 1 }]

theorem emitted_read_back_emitter :
    let asked := perform 2 emitter (0, .delta 0)
    let later := (asked.1.converse 0 quietly).2
    ∃ doc, asked.2 = .ok (.document doc) ∧ (Document.parse? doc.toBytes).isSome = true ∧
      (perform 2 later (0, .submit doc.toBytes)).2 =
        .ok (.report ⟨["a\"\n\x01é", "blob", "gain", "view"], [], 9⟩) := by
  intro asked later
  have hr : Reachable 0 emitter :=
    ⟨_, start (.replicate 1 .reject), start_getElem _ 0, _, history_converse 0 _ _⟩
  have hfree : (0 : Fin 1) ∉ emitter.dispatching :=
    free_converse (.last 0) _ List.not_mem_nil
  have hword : emitter[(0 : Fin 1)].store.revision ≤ Text.maxWord := by with_unfolding_all decide
  have hquiet : ((asked.1.converse 0 quietly).1.map Exchange.commits).sum = 0 := by
    with_unfolding_all decide
  have hfree' : (0 : Fin 1) ∉ later.dispatching :=
    free_converse 0 quietly (free_perform 2 (0, .delta 0) hfree)
  have hkeys : (emitter[(0 : Fin 1)].store.deltaDocument 0).keys =
      ["a\"\n\x01é", "blob", "gain", "view"] := by with_unfolding_all decide
  have hrevision : (emitter[(0 : Fin 1)].store.deltaDocument 0).revision = 5 := by
    with_unfolding_all decide
  have hset : emitter[(0 : Fin 1)].store.layout = nestedArrays 125 := by with_unfolding_all rfl
  have hdepth : emitter[(0 : Fin 1)].store.layout.depth < Json.maxDepth := by
    rw [hset, depth_nestedArrays]
    decide
  have hanswer : asked.2 = .ok (.document (emitter[(0 : Fin 1)].store.deltaDocument 0)) := by
    show (perform 2 emitter (0, .delta 0)).2 = _
    rw [perform, answer_of_free hfree]
    rfl
  obtain ⟨doc, hdoc, hlayout, hparse, htakes⟩ :=
    emitted_read_back hr hfree hword (.inr ⟨0, rfl⟩) 1
  have hsame : doc = emitter[(0 : Fin 1)].store.deltaDocument 0 := by
    have heq := hdoc.symm.trans hanswer
    injection heq with heq
    injection heq
  rw [← hlayout] at hdepth
  have htaken := htakes (history_converse 0 asked.1 quietly) hquiet hfree' 1
  rw [if_pos hdepth] at hparse htaken
  refine ⟨doc, hdoc, ?_, ?_⟩
  · rw [hparse]
    rfl
  · rw [htaken, hsame, hkeys, hrevision]
    rfl

/-- The deepest layout that can be read by itself makes the documents of its model
unreadable. -/
theorem deep_layout_refused :
    let w := alone [.setLayout (nestedArrays 126)]
    let bytes := w[(0 : Fin 1)].store.fullDocument.toBytes
    (Json.parse? (nestedArrays 126).render.toUTF8).isSome = true ∧
      (w.call (0, .full)).2 = .ok (.document w[(0 : Fin 1)].store.fullDocument) ∧
      Document.parse? bytes = none ∧
      ((w.call (0, .full)).1.call (0, .submit bytes)).2 = .error .malformedDocument := by
  intro w bytes
  have hs : w[(0 : Fin 1)].store.Sound := (reachable_alone _).sound
  have hfree : (0 : Fin 1) ∉ w.dispatching := free_alone _
  have hfree' : (0 : Fin 1) ∉ (w.call (0, .full)).1.dispatching := free_perform 2 (0, .full) hfree
  have hword : w[(0 : Fin 1)].store.revision ≤ Text.maxWord := by with_unfolding_all decide
  have hset : w[(0 : Fin 1)].store.layout = nestedArrays 126 := by with_unfolding_all rfl
  have hdeep : ¬ w[(0 : Fin 1)].store.layout.depth < Json.maxDepth := by
    rw [hset, depth_nestedArrays]
    decide
  have hparse : Document.parse? bytes = none :=
    (hs.parse?_toBytes hword).trans (if_neg hdeep)
  refine ⟨?_, ?_, hparse, submit_of_not_parse hfree' hparse⟩
  · rw [Json.parse?_render, depth_nestedArrays, if_pos (by decide)]
    rfl
  · show (perform 2 w (0, .full)).2 = _
    rw [perform, answer_of_free hfree]
    rfl

end World

end SharedState
