import SharedState.Proofs.Store.Standing
import SharedState.Proofs.World.History

/-!
# What the elements of a model owe to its history

The elements of a model are what the answers of the model tell of them. Every
stamp is the revision that the latest successful answer about its key returned,
and a key without an element is one whose latest answer is to its removal, or
that no answer is about. The nature of an element is what it was created with,
for as long as it is not removed. With the invariant of the store this is all
that a reader of elements can rely on, after any history.
-/

namespace SharedState

variable {n : Nat}

namespace Exchange

/-- What an answer tells of the stamps of keys, one after another: a revision,
or nothing for a key that is gone. -/
def stamps (x : Exchange n) : List (String × Option Nat) :=
  match x.operation, x.reply with
  | .add spec, .ok (.revision r) => [(spec.key, some r)]
  | .update key _, .ok (.revision r) => [(key, some r)]
  | .annotate key _, .ok (.revision r) => [(key, some r)]
  | .remove key, .ok (.revision _) => [(key, none)]
  | _, .ok (.report report) => report.applied.zip (x.revisions.map some)
  | _, _ => []

/-- The stamp that a key has after the answers, if it has one. -/
def lastStamp? (log : List (Exchange n)) (key : String) : Option Nat :=
  ((log.flatMap stamps).reverse.lookup key).join

theorem lastStamp?_concat (log : List (Exchange n)) (x : Exchange n) (key : String) :
    lastStamp? (log ++ [x]) key =
      (x.stamps.reverse.lookup key).getD (lastStamp? log key) := by
  rw [lastStamp?, List.flatMap_append, List.flatMap_singleton, List.reverse_append,
    List.lookup_append]
  cases List.lookup key x.stamps.reverse <;> rfl

/-- The answer tells that a key was removed. -/
def Removes (key : String) (x : Exchange n) : Prop :=
  match x.operation, x.reply with
  | .remove removed, .ok _ => removed = key
  | _, _ => False

end Exchange

namespace World

section operate

variable {call : World n → Call n → World n × Reply} {w : World n} {i : Fin n} {key : String}

/-- What the four changes have in common: a change that goes through tells of
one key, and that is the key whose stamp it changes. -/
theorem change_stamp? (hc : RespectsMarks call) (stamp : Nat → Option Nat)
    {op : Operation (Listener n)} {result : Except Error (Store × Commit)} {changed : String}
    (hstep : ∀ done, result = .ok done → w[i].store.Step done)
    (hop : ∀ r, Exchange.stamps ⟨op, .ok (.revision r)⟩ = [(changed, stamp r)])
    (hfail : ∀ e, Exchange.stamps ⟨op, .error e⟩ = [])
    (hstamp : ∀ done, result = .ok done → done.1.stamp? key =
      if key = changed then stamp (w[i].store.revision + 1) else w[i].store.stamp? key) :
    (replyRevision (change call w i result)).1[i].store.stamp? key =
      ((Exchange.stamps ⟨op, (replyRevision (change call w i result)).2⟩).reverse.lookup
        key).getD (w[i].store.stamp? key) := by
  cases result with
  | error e =>
      show _ = (List.lookup key (Exchange.stamps ⟨op, .error e⟩).reverse).getD _
      rw [hfail]
      rfl
  | ok done =>
      obtain ⟨-, hrev, -, -⟩ := (hstep done rfl).counts
      show (change call w i (.ok done)).1[i].store.stamp? key =
        (List.lookup key (Exchange.stamps ⟨op, .ok (.revision done.2.revision)⟩).reverse).getD _
      rw [change_store hc, hstamp done rfl, hop, hrev, List.reverse_singleton,
        KeyMap.lookup_cons_eq]
      split <;> rfl

theorem applyDocument_stamp? (hc : RespectsMarks call) (hs : w[i].store.Sound)
    (doc : Document) :
    (applyDocument call w i doc).1[i].store.stamp? key =
      ((Exchange.stamps (n := n) ⟨.apply doc, (applyDocument call w i doc).2⟩).reverse.lookup
        key).getD (w[i].store.stamp? key) := by
  by_cases href : w[i].store.Refuses doc
  · obtain ⟨e, happly⟩ := applyDocument_of_refuses call hs href
    rw [happly, count_getElem, setStore_getElem_self]
    show (w[i].store.afterPlanning doc).stamp? key = _
    rw [Store.stamp?, Store.afterPlanning_elements]
    rfl
  · have ht := Store.takes_of_not_refuses href
    have hstamp : (w[i].store.updateAll _).stamp? key = _ := hs.stamp?_updateAll ht
    rw [applyDocument_store hc hs href, applyDocument_of_not_refuses hc hs href, Store.stamp?,
      Store.afterPlanning_elements]
    refine hstamp.trans ?_
    have hfirst : ∀ count, w[i].store.revision + count + 1 - count =
        w[i].store.revision + 1 := by omega
    simp only [Exchange.stamps, Exchange.revisions, Store.reportFor, List.length_map, hfirst]

theorem operate_stamp? (hc : RespectsMarks call) (hs : w[i].store.Sound)
    (op : Operation (Listener n)) :
    (operate call w i op).1[i].store.stamp? key =
      ((Exchange.stamps ⟨op, (operate call w i op).2⟩).reverse.lookup key).getD
        (w[i].store.stamp? key) := by
  cases op with
  | add spec =>
      exact change_stamp? hc some (fun _ hd => .add hd) (fun _ => rfl) (fun _ => rfl)
        fun _ hd => Store.stamp?_add hd
  | update k value =>
      exact change_stamp? hc some (fun _ hd => .update hd) (fun _ => rfl) (fun _ => rfl)
        fun _ hd => hs.stamp?_update hd
  | annotate k label =>
      exact change_stamp? hc some (fun _ hd => .annotate hd) (fun _ => rfl) (fun _ => rfl)
        fun _ hd => hs.stamp?_annotate hd
  | remove k =>
      exact change_stamp? hc (fun _ => none) (fun _ hd => .remove hd) (fun _ => rfl)
        (fun _ => rfl) fun _ hd => Store.stamp?_remove hd
  | apply doc => exact applyDocument_stamp? hc hs doc
  | look | submit => rfl
  | setLayout | schema | full | delta =>
      simp only [operate, count_getElem, setStore_getElem_self]
      rfl
  | register | unregister =>
      simp only [operate, modify_eq_replace, replace_getElem_self]
      rfl

/-- What the nature of an element has to do with a change that goes through. -/
theorem change_nature? (hc : RespectsMarks call) {result : Except Error (Store × Commit)}
    {nature : Kind × Constraint × Bool} (h : w[i].store.nature? key = some nature)
    (hkeep : ∀ done, result = .ok done → done.1.nature? key = some nature) :
    (replyRevision (change call w i result)).1[i].store.nature? key = some nature := by
  cases result with
  | error e => exact h
  | ok done =>
      show (change call w i (.ok done)).1[i].store.nature? key = _
      rw [change_store hc, hkeep done rfl]

theorem operate_nature? (hc : RespectsMarks call) (hs : w[i].store.Sound)
    {op : Operation (Listener n)} {nature : Kind × Constraint × Bool}
    (h : w[i].store.nature? key = some nature)
    (hkept : ¬ Exchange.Removes key ⟨op, (operate call w i op).2⟩) :
    (operate call w i op).1[i].store.nature? key = some nature := by
  cases op with
  | add spec => exact change_nature? hc h fun _ hd => Store.nature?_add hd h
  | update k value => exact change_nature? hc h fun _ hd => (hs.nature?_update hd).trans h
  | annotate k label => exact change_nature? hc h fun _ hd => (hs.nature?_annotate hd).trans h
  | remove k =>
      refine change_nature? hc h fun done hd => ?_
      refine (Store.nature?_remove hd ?_).trans h
      intro heq
      apply hkept
      simp only [operate, hd, heq]
      exact rfl
  | apply doc =>
      show (applyDocument call w i doc).1[i].store.nature? key = _
      by_cases href : w[i].store.Refuses doc
      · obtain ⟨e, happly⟩ := applyDocument_of_refuses call hs href
        rw [happly, count_getElem, setStore_getElem_self]
        show (w[i].store.afterPlanning doc).nature? key = _
        rwa [Store.nature?, Store.afterPlanning_elements]
      · rw [applyDocument_store hc hs href, Store.nature?, Store.afterPlanning_elements]
        exact (hs.nature?_updateAll (Store.takes_of_not_refuses href)).trans h
  | look | submit => exact h
  | setLayout | schema | full | delta =>
      simp only [operate, count_getElem, setStore_getElem_self]
      exact h
  | register | unregister =>
      simp only [operate, modify_eq_replace, replace_getElem_self]
      exact h

end operate

variable {m : Fin n} {w w' w'' : World n} {log log' : List (Exchange n)} {key : String}

/-- It makes no difference to what an answer tells whether the document was
read before. -/
theorem stamps_readDocument (op : Operation (Listener n)) (reply : Reply) :
    Exchange.stamps ⟨readDocument op, reply⟩ = Exchange.stamps ⟨op, reply⟩ := by
  cases op with
  | submit bytes =>
      simp only [readDocument]
      cases Document.parse? bytes with
      | none => rfl
      | some doc =>
          rcases reply with e | outcome
          · rfl
          · cases outcome <;> rfl
  | _ => rfl

theorem perform_stamp? (depth : Nat) (hs : w[m].store.Sound) (op : Operation (Listener n)) :
    (perform depth w (m, op)).1[m].store.stamp? key =
      ((Exchange.stamps ⟨op, (perform depth w (m, op)).2⟩).reverse.lookup key).getD
        (w[m].store.stamp? key) := by
  rcases perform_eq_or depth w (m, op) with hp | ⟨below, hp⟩
  · rw [hp]
    cases op <;> rfl
  · rw [hp, ← stamps_readDocument]
    exact operate_stamp? (perform_respectsMarks below) hs _

theorem perform_nature? (depth : Nat) (hs : w[m].store.Sound) {op : Operation (Listener n)}
    {nature : Kind × Constraint × Bool} (h : w[m].store.nature? key = some nature)
    (hkept : ¬ Exchange.Removes key ⟨op, (perform depth w (m, op)).2⟩) :
    (perform depth w (m, op)).1[m].store.nature? key = some nature := by
  rcases perform_eq_or depth w (m, op) with hp | ⟨below, hp⟩
  · rwa [hp]
  · rw [hp] at hkept ⊢
    refine operate_nature? (perform_respectsMarks below) hs h ?_
    cases op with
    | submit bytes =>
        simp only [readDocument]
        cases Document.parse? bytes <;> exact id
    | _ => exact hkept

/-! ## Over a history -/

theorem History.stamp? (h : History m w log w') (hs : w[m].store.Sound)
    (hnone : w[m].store.stamp? key = none) :
    w'[m].store.stamp? key = Exchange.lastStamp? log key := by
  induction h with
  | start => exact hnone
  | exchange depth op hist ih =>
      rw [perform_stamp? depth (hist.sound hs), Exchange.lastStamp?_concat, ih]
  | elsewhere _ heq ih => rw [heq, ih]

theorem History.nature? (h : History m w log w') (hs : w[m].store.Sound)
    {nature : Kind × Constraint × Bool} (hn : w[m].store.nature? key = some nature)
    (hkept : ∀ x ∈ log, ¬ x.Removes key) : w'[m].store.nature? key = some nature := by
  induction h with
  | start => exact hn
  | exchange depth op hist ih =>
      refine perform_nature? depth (hist.sound hs) (ih ?_) (hkept _ (by simp))
      intro x hx
      exact hkept x (List.mem_append_left _ hx)
  | elsewhere _ heq ih =>
      rw [heq]
      exact ih hkept

/-- What holds of the elements of a model after any history. Each one lies
under its own key, under a constraint that makes sense for its kind and that
its value obeys. Its stamp is the revision of the latest answer about its key,
one of those made so far and shared with no other element. And its kind, its
constraint and whether it is exposed stay as they are until it is removed. -/
theorem history_elements {policy : Policy} (hnew : w[m] = Model.empty policy)
    (h : History m w log w') :
    let s := w'[m].store
    (∀ key, (s.elements.find? key).map (·.lastModified) = Exchange.lastStamp? log key) ∧
      ∀ key e, s.elements.find? key = some e →
        e.key = key ∧
          (e.constraint.validateFor key e.kind = .ok () ∧ e.constraint.Fits e.kind) ∧
          e.constraint.check key e.value = .ok () ∧
          (1 ≤ e.lastModified ∧ e.lastModified ≤ s.revision) ∧
          (∀ key' e', s.elements.find? key' = some e' →
            e'.lastModified = e.lastModified → key' = key) ∧
          ∀ log' w'', History m w' log' w'' → (∀ x ∈ log', ¬ x.Removes key) →
            ∃ e', w''[m].store.elements.find? key = some e' ∧ e'.kind = e.kind ∧
              e'.constraint = e.constraint ∧ e'.exposed = e.exposed := by
  intro s
  have hs₀ : w[m].store.Sound := by
    rw [hnew]
    exact Store.sound_empty policy
  have hs : s.Sound := h.sound hs₀
  constructor
  · intro key
    refine h.stamp? hs₀ ?_
    rw [hnew]
    rfl
  · intro key e he
    obtain ⟨hvalid, hadmitted⟩ := hs.wellFormed he
    obtain rfl := hs.keyed he
    refine ⟨rfl, ⟨hvalid, Constraint.validateFor_eq_ok_iff.1 hvalid⟩,
      Constraint.check_eq_ok_iff.2 hadmitted, hs.stamped he, ?_, ?_⟩
    · intro key' e' he' heq
      exact hs.distinct he' he heq
    · intro log' w'' h' hkept
      have hn : s.nature? e.key = some e.nature := by rw [Store.nature?, he]; rfl
      obtain ⟨e', he', hnature⟩ := Option.map_eq_some_iff.1 (h'.nature? hs hn hkept)
      obtain ⟨hkind, hrest⟩ := Prod.mk.inj hnature
      obtain ⟨hconstraint, hexposed⟩ := Prod.mk.inj hrest
      exact ⟨e', he', hkind, hconstraint, hexposed⟩

/-- A run in which a key is used a second time, for elements of another kind. -/
def rebuilding : List (Operation (Listener 1)) :=
  [.add { key := "gain", value := .boolean true },
   .add { key := "mode", value := .string "a", constraint := .allowed [.string "a", .string "b"] },
   .remove "gain",
   .remove "tone",
   .add { key := "gain", value := .integer 1, constraint := .range (.integer 0) (.integer 8) },
   .apply { state := [⟨"gain", .string "4"⟩, ⟨"mode", .string "b"⟩, ⟨"gain", .string "5"⟩] }]

theorem history_elements_rebuilding :
    let first : World 1 := .start (.replicate 1 .ignore)
    let last := (first.converse 0 rebuilding).2
    let next := (perform 2 last (0, .update "gain" (.boolean true))).1
    Exchange.lastStamp? (first.converse 0 rebuilding).1 "gain" = some 7 ∧
      ∃ e, last[(0 : Fin 1)].store.elements.find? "gain" = some e ∧ e.lastModified = 7 ∧
        e.constraint.Fits e.kind ∧
        ∃ e', next[(0 : Fin 1)].store.elements.find? "gain" = some e' ∧ e'.kind = e.kind := by
  intro first last next
  have hseven : Exchange.lastStamp? (first.converse 0 rebuilding).1 "gain" = some 7 := by
    with_unfolding_all decide
  have hhist : History 0 first (first.converse 0 rebuilding).1 last :=
    history_converse 0 first rebuilding
  have hnext : History 0 last [⟨.update "gain" (.boolean true), _⟩] next :=
    History.start.exchange 2 (.update "gain" (.boolean true))
  clear_value last
  obtain ⟨hstamps, helements⟩ := history_elements (start_getElem (.replicate 1 .ignore) 0) hhist
  have hgain := hstamps "gain"
  rw [hseven] at hgain
  obtain ⟨e, he, hstamp⟩ := Option.map_eq_some_iff.1 hgain
  obtain ⟨-, ⟨-, hfits⟩, -, -, -, hkept⟩ := helements "gain" e he
  obtain ⟨e', he', hkind, -, -⟩ := hkept _ next hnext (by
    intro x hx
    rw [List.mem_singleton.1 hx]
    exact id)
  exact ⟨hseven, e, he, hstamp, hfits, e', he', hkind⟩

end World

end SharedState
