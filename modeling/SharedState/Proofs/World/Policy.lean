import SharedState.Proofs.World.Application
import SharedState.Proofs.World.Nesting

/-!
# The two policies

A store that passes over entries for keys that it does not expose, and one that
rejects documents with such entries, are the same store but for that. The policy
is asked while a document is planned, and about such entries only. So planning a
document under the lenient policy is planning the rest of it under the strict
one and noting down the keys that were left out: `plan_ignore`.

What follows the planning never asks for the policy, and putting another policy
into the model commutes with all of it, with the calls of listeners too, for
they cannot look into a model that is marked. So the two runs stay in lockstep,
and what they leave behind differs in the policy alone.
-/

namespace SharedState

namespace Store

variable {s : Store} {p : Policy}

def withPolicy (s : Store) (p : Policy) : Store := { s with policy := p }

/-- The document without the entries for keys that the store does not expose. -/
def exposedPart (s : Store) (doc : Document) : Document :=
  { doc with state := doc.state.filter fun entry => (s.exposed? entry.key).isSome }

/-! ## Planning -/

theorem planEntries_cons_of_exposed {entry : Entry} {e : Element}
    (hx : s.exposed? entry.key = some e) (rest : List Entry) :
    (s.withPolicy p).planEntries (entry :: rest) =
      (Value.ofWire entry.key e.kind entry.value >>= fun value =>
        s.checkUpdate entry.key value >>= fun _ =>
          ((s.withPolicy p).planEntries rest).map fun plan =>
            { plan with updates := (entry.key, value) :: plan.updates }) := by
  have hx' : (s.withPolicy p).exposed? entry.key = some e := hx
  rw [planEntries, planEntry, hx']
  show ((Value.ofWire entry.key e.kind entry.value >>= fun value =>
    s.checkUpdate entry.key value >>= fun _ => Except.ok (some value)) >>= fun _ => _) = _
  cases Value.ofWire entry.key e.kind entry.value with
  | error error => rfl
  | ok value =>
      show ((s.checkUpdate entry.key value >>= fun _ => Except.ok (some value)) >>= fun _ => _) =
        (s.checkUpdate entry.key value >>= fun _ => _)
      cases s.checkUpdate entry.key value <;> rfl

theorem planEntries_cons_of_unknown {entry : Entry} (hx : s.exposed? entry.key = none)
    (rest : List Entry) :
    (s.withPolicy .ignore).planEntries (entry :: rest) =
      ((s.withPolicy .ignore).planEntries rest).map fun plan =>
        { plan with ignored := entry.key :: plan.ignored } := by
  have hx' : (s.withPolicy .ignore).exposed? entry.key = none := hx
  rw [planEntries, planEntry, hx']
  rfl

theorem passedOver_cons_of_unknown {entry : Entry} (hx : s.exposed? entry.key = none)
    (rest : List Entry) : s.passedOver (entry :: rest) = entry.key :: s.passedOver rest := by
  simp [passedOver, hx]

theorem passedOver_cons_of_exposed {entry : Entry} {e : Element}
    (hx : s.exposed? entry.key = some e) (rest : List Entry) :
    s.passedOver (entry :: rest) = s.passedOver rest := by
  simp [passedOver, hx]

/-- The lenient policy plans the exposed entries as the strict one does, and notes down the
others. -/
theorem planEntries_ignore (entries : List Entry) :
    (s.withPolicy .ignore).planEntries entries =
      ((s.withPolicy .reject).planEntries
        (entries.filter fun entry => (s.exposed? entry.key).isSome)).map
          fun plan => { plan with ignored := s.passedOver entries } := by
  induction entries with
  | nil => rfl
  | cons entry rest ih =>
      cases hx : s.exposed? entry.key with
      | none =>
          rw [passedOver_cons_of_unknown hx, List.filter_cons_of_neg (by simp [hx]),
            planEntries_cons_of_unknown hx, ih]
          cases (s.withPolicy .reject).planEntries _ <;> rfl
      | some e =>
          rw [passedOver_cons_of_exposed hx, List.filter_cons_of_pos (by simp [hx]),
            planEntries_cons_of_exposed hx, planEntries_cons_of_exposed hx, ih]
          cases Value.ofWire entry.key e.kind entry.value with
          | error error => rfl
          | ok value =>
              show (s.checkUpdate entry.key value >>= fun _ => _) =
                (s.checkUpdate entry.key value >>= fun _ => _).map _
              cases s.checkUpdate entry.key value with
              | error error => rfl
              | ok _ => cases (s.withPolicy .reject).planEntries _ <;> rfl

theorem plan_ignore (s : Store) (doc : Document) :
    (s.withPolicy .ignore).plan doc =
      ((s.withPolicy .reject).plan (s.exposedPart doc)).map
        fun plan => { plan with ignored := s.passedOver doc.state } := by
  have hentries := planEntries_ignore (s := s) doc.state
  cases hd : doc.schema with
  | none =>
      simp only [plan, exposedPart, hd]
      exact hentries
  | some declared =>
      have hschema : ∀ p, (s.withPolicy p).schema = s.schema := fun _ => rfl
      simp only [plan, exposedPart, hd, hschema]
      cases s.schema.compare declared.elements with
      | error error => rfl
      | ok _ => exact hentries

theorem planEntries_of_plan {doc : Document} {plan : Plan} (h : s.plan doc = .ok plan) :
    s.planEntries doc.state = .ok plan := by
  unfold Store.plan at h
  cases hd : doc.schema with
  | none =>
      rw [hd] at h
      exact h
  | some declared =>
      rw [hd] at h
      obtain ⟨_, -, hentries⟩ := bind_eq_ok_iff.1 h
      exact hentries

/-- What the strict policy lets pass has nothing to pass over. -/
theorem passedOver_of_plan_reject {doc : Document} {plan : Plan}
    (h : (s.withPolicy .reject).plan doc = .ok plan) :
    s.passedOver doc.state = [] ∧ plan.ignored = [] := by
  obtain ⟨hpass, rfl⟩ := planEntries_eq_ok_iff.1 (planEntries_of_plan h)
  have hnone : s.passedOver doc.state = [] := by
    rw [passedOver, List.map_eq_nil_iff, List.filter_eq_nil_iff]
    intro entry hentry hunknown
    have hp := hpass entry hentry
    have hx : (s.withPolicy .reject).exposed? entry.key = none :=
      Option.isNone_iff_eq_none.1 hunknown
    simp only [Passes, hx] at hp
    cases hp
  exact ⟨hnone, hnone⟩

theorem exposedPart_of_passedOver {doc : Document} (h : s.passedOver doc.state = []) :
    s.exposedPart doc = doc := by
  rw [passedOver, List.map_eq_nil_iff, List.filter_eq_nil_iff] at h
  have hall : (doc.state.filter fun entry => (s.exposed? entry.key).isSome) = doc.state :=
    List.filter_eq_self.2 fun entry hentry => by
      have hx := h entry hentry
      rwa [Bool.not_eq_true, Option.isNone_eq_false_iff] at hx
  rw [exposedPart, hall]

/-! ## Changing -/

theorem update_withPolicy (key : String) (value : Value) :
    (s.withPolicy p).update key value =
      (s.update key value).map fun done => (done.1.withPolicy p, done.2) := by
  have helement : (s.withPolicy p).element key = s.element key := rfl
  rw [update, update, helement]
  cases s.element key with
  | error error => rfl
  | ok e =>
      show ((e.checkUpdate value >>= fun _ => _) : Except Error _) =
        ((e.checkUpdate value >>= fun _ => _) : Except Error _).map _
      cases e.checkUpdate value <;> rfl

theorem afterPlanning_withPolicy (doc : Document) :
    (s.withPolicy p).afterPlanning doc = (s.afterPlanning doc).withPolicy p := by
  unfold afterPlanning
  split <;> rfl

end Store

/-- The report with other keys passed over. -/
def Report.skipping (keys : List String) (report : Report) : Report :=
  { report with ignored := keys }

/-- The outcome with other keys passed over. -/
def Outcome.skipping (keys : List String) : Outcome → Outcome
  | .report found => .report (found.skipping keys)
  | other => other

theorem Outcome.skipping_eq_report {keys : List String} {outcome : Outcome} {report : Report}
    (h : outcome.skipping keys = .report report) :
    ∃ found, outcome = .report found ∧ found.skipping keys = report := by
  cases outcome with
  | report found => exact ⟨found, rfl, Outcome.report.inj h⟩
  | _ => cases h

namespace World

variable {n : Nat} {m : Fin n} {w : World n} {p : Policy}
  {call : World n → Call n → World n × Reply}

/-- The world with another policy of one model. -/
def withPolicy (w : World n) (m : Fin n) (p : Policy) : World n :=
  w.setStore m (w[m].store.withPolicy p)

/-! ## The second phase -/

theorem withPolicy_store (w : World n) (m : Fin n) (p : Policy) :
    (w.withPolicy m p)[m].store = w[m].store.withPolicy p :=
  congrArg Model.store (setStore_getElem_self w _)

theorem setStore_setStore (w : World n) (m : Fin n) (s t : Store) :
    (w.setStore m s).setStore m t = w.setStore m t := by
  simp only [setStore_eq_replace, replace_getElem_self, replace_replace]

theorem withPolicy_withPolicy (w : World n) (m : Fin n) (p q : Policy) :
    (w.withPolicy m p).withPolicy m q = w.withPolicy m q := by
  rw [withPolicy, withPolicy_store, withPolicy, setStore_setStore]
  rfl

theorem change_withPolicy (hc : RespectsMarks call) (w : World n)
    (result : Except Error (Store × Commit)) :
    change call (w.withPolicy m p) m (result.map fun done => (done.1.withPolicy p, done.2)) =
      ((change call w m result).1.withPolicy m p, (change call w m result).2) := by
  cases result with
  | error error => rfl
  | ok done =>
      have hstore : (w.commit call m done.1 done.2)[m].store = done.1 :=
        change_store hc w m done
      have hcommit : (w.setStore m (w[m].store.withPolicy p)).commit call m
          (done.1.withPolicy p) done.2 =
            (w.commit call m done.1 done.2).setStore m (done.1.withPolicy p) :=
        commit_setStore hc w _ done.2 rfl
      have hpolicy : (w.withPolicy m p).commit call m (done.1.withPolicy p) done.2 =
          (w.commit call m done.1 done.2).withPolicy m p := by
        rw [withPolicy, withPolicy, hstore]
        exact hcommit
      exact congrArg (·, Except.ok done.2.revision) hpolicy

theorem applyUpdates_withPolicy (hc : RespectsMarks call) (updates : List (String × Value))
    (report : Report) (w : World n) :
    applyUpdates call m report (w.withPolicy m p) updates =
      ((applyUpdates call m report w updates).1.withPolicy m p,
        (applyUpdates call m report w updates).2) := by
  induction updates generalizing report w with
  | nil => rfl
  | cons u rest ih =>
      have hfirst := change_withPolicy (m := m) (p := p) hc w (w[m].store.update u.1 u.2)
      rw [applyUpdates, applyUpdates, withPolicy_store, Store.update_withPolicy, hfirst]
      rcases change call w m (w[m].store.update u.1 u.2) with ⟨w', error | revision⟩
      · rfl
      · exact ih _ w'

/-- Keys that were passed over are reported and nothing else. -/
theorem applyUpdates_skipping (call : World n → Call n → World n × Reply) (m : Fin n)
    (keys : List String) (updates : List (String × Value)) (report : Report) (w : World n) :
    applyUpdates call m (report.skipping keys) w updates =
      ((applyUpdates call m report w updates).1,
        (applyUpdates call m report w updates).2.map (Report.skipping keys)) := by
  induction updates generalizing report w with
  | nil => rfl
  | cons u rest ih =>
      rw [applyUpdates, applyUpdates]
      rcases change call w m (w[m].store.update u.1 u.2) with ⟨w', error | revision⟩
      · rfl
      · exact ih { report with applied := report.applied ++ [u.1], revision } w'

theorem applyUpdates_ignored {updates : List (String × Value)} {report last : Report}
    (h : (applyUpdates call m report w updates).2 = .ok last) :
    last.ignored = report.ignored := by
  induction updates generalizing report w with
  | nil =>
      cases h
      rfl
  | cons u rest ih =>
      rw [applyUpdates] at h
      rcases hr : change call w m (w[m].store.update u.1 u.2) with ⟨w', error | revision⟩
      · rw [hr] at h
        cases h
      · rw [hr] at h
        have hrest := ih h
        exact hrest

/-- Whom the updates tell of what does not depend on the policy. -/
theorem updatesTold_withPolicy (hc : RespectsMarks call) (updates : List (String × Value))
    (w : World n) :
    (updatesTold call m (w.withPolicy m p) updates).map Telling.heard =
      (updatesTold call m w updates).map Telling.heard := by
  induction updates generalizing w with
  | nil => rfl
  | cons u rest ih =>
      rw [updatesTold, updatesTold, withPolicy_store, Store.update_withPolicy]
      cases hu : w[m].store.update u.1 u.2 with
      | error error => rfl
      | ok done =>
          have hfirst : change call (w.withPolicy m p) m (.ok (done.1.withPolicy p, done.2)) =
              ((change call w m (.ok done)).1.withPolicy m p, .ok done.2.revision) :=
            change_withPolicy hc w (.ok done)
          have hregistry : (w.withPolicy m p)[m].registry = w[m].registry := by
            rw [withPolicy, setStore_getElem_self]
          show ((changeTold call m (w.withPolicy m p) (.ok (done.1.withPolicy p, done.2)) ++
            updatesTold call m (change call (w.withPolicy m p) m
              (.ok (done.1.withPolicy p, done.2))).1 rest).map Telling.heard) = _
          rw [List.map_append, List.map_append, changeTold_heard hc, changeTold_heard hc,
            hregistry, hfirst, ih]

/-! ## Documents -/

/-- The world after a document has been planned, whatever the outcome. -/
def planned (w : World n) (m : Fin n) (doc : Document) : World n :=
  w.setStore m (w[m].store.afterPlanning doc)

theorem planned_withPolicy (w : World n) (m : Fin n) (p : Policy) (doc : Document) :
    (w.withPolicy m p).planned m doc = (w.planned m doc).withPolicy m p := by
  rw [planned, planned, withPolicy_store, Store.afterPlanning_withPolicy, withPolicy,
    setStore_setStore, withPolicy, setStore_setStore, setStore_getElem_self]

theorem planAndApply_withPolicy (hc : RespectsMarks call) (w : World n) (m : Fin n)
    (p : Policy) (doc : Document) :
    planAndApply call (w.withPolicy m p) m doc =
      match (w[m].store.withPolicy p).plan doc with
      | .error error => ((w.planned m doc).withPolicy m p, .error error)
      | .ok plan =>
        let applied := applyUpdates call m
          { ignored := plan.ignored, revision := w[m].store.revision } (w.planned m doc)
          plan.updates
        (applied.1.withPolicy m p, applied.2) := by
  have hplanned := planned_withPolicy w m p doc
  rw [planned, withPolicy_store] at hplanned
  simp only [planAndApply, withPolicy_store, hplanned]
  cases (w[m].store.withPolicy p).plan doc with
  | error error => rfl
  | ok plan => exact applyUpdates_withPolicy hc plan.updates _ _

theorem documentTold_withPolicy (hc : RespectsMarks call) (w : World n) (m : Fin n)
    (p : Policy) (doc : Document) :
    (documentTold call m (w.withPolicy m p) doc).map Telling.heard =
      match (w[m].store.withPolicy p).plan doc with
      | .ok plan => (updatesTold call m (w.planned m doc) plan.updates).map Telling.heard
      | .error _ => [] := by
  have hplanned := planned_withPolicy w m p doc
  rw [planned, withPolicy_store] at hplanned
  simp only [documentTold, withPolicy_store, hplanned]
  cases (w[m].store.withPolicy p).plan doc with
  | error error => rfl
  | ok plan => exact updatesTold_withPolicy hc plan.updates _

/-- What a document does to a model, and what the model does with it, depends on the policy
only by the entries that are passed over. -/
theorem applyDocument_ignore (hc : RespectsMarks call) (w : World n) (m : Fin n)
    (doc : Document) :
    let known := w[m].store.exposedPart doc
    let strict := applyDocument call (w.withPolicy m .reject) m known
    applyDocument call (w.withPolicy m .ignore) m doc =
        (strict.1.withPolicy m .ignore,
          strict.2.map (Outcome.skipping (w[m].store.passedOver doc.state))) ∧
      (documentTold call m (w.withPolicy m .ignore) doc).map Telling.heard =
        (documentTold call m (w.withPolicy m .reject) known).map Telling.heard := by
  intro known strict
  have hplan := w[m].store.plan_ignore doc
  have hknown : w.planned m known = w.planned m doc := rfl
  have hback := fun w' : World n => withPolicy_withPolicy w' m .reject .ignore
  have hstrict : strict = applyDocument call (w.withPolicy m .reject) m known := rfl
  rw [applyDocument, planAndApply_withPolicy hc] at hstrict
  rw [documentTold_withPolicy hc, documentTold_withPolicy hc, applyDocument,
    planAndApply_withPolicy hc, hstrict, hplan, hknown]
  cases (w[m].store.withPolicy .reject).plan known with
  | error error =>
      refine ⟨?_, rfl⟩
      exact congrArg (·, Except.error error) (hback ((w.planned m doc).count
        (·.countApply false))).symm
  | ok plan =>
      refine ⟨?_, rfl⟩
      have hskip := applyUpdates_skipping call m (w[m].store.passedOver doc.state) plan.updates
        { ignored := plan.ignored, revision := w[m].store.revision } (w.planned m doc)
      have hlenient : applyUpdates call m
          { ignored := w[m].store.passedOver doc.state, revision := w[m].store.revision }
          (w.planned m doc) plan.updates = _ := hskip
      simp only [Except.map, hlenient]
      rcases applyUpdates call m { ignored := plan.ignored, revision := w[m].store.revision }
        (w.planned m doc) plan.updates with ⟨w', error | report⟩
      · exact congrArg (·, Except.error error) (hback (w'.count (·.countApply false))).symm
      · exact congrArg (·, Except.ok _) (hback (w'.count (·.countApply true))).symm

/-- A document that the strict policy lets pass had nothing to pass over, and its report says
so. -/
theorem applyDocument_reject {doc : Document} {report : Report}
    (h : (applyDocument call (w.withPolicy m .reject) m doc).2 = .ok (.report report)) :
    w[m].store.passedOver doc.state = [] ∧ report.ignored = [] := by
  have happly : (applyDocument call (w.withPolicy m .reject) m doc).2 =
      (planAndApply call (w.withPolicy m .reject) m doc).2.map .report :=
    congrArg Prod.snd (applyDocument_seen _ doc)
  obtain ⟨found, hreport, hfound⟩ := map_eq_ok_iff.1 (happly.symm.trans h)
  cases hfound
  simp only [planAndApply, withPolicy_store] at hreport
  cases hplan : (w[m].store.withPolicy .reject).plan doc with
  | error error =>
      rw [hplan] at hreport
      cases hreport
  | ok plan =>
      obtain ⟨hnone, hplanned⟩ := Store.passedOver_of_plan_reject hplan
      rw [hplan] at hreport
      exact ⟨hnone, (applyUpdates_ignored hreport).trans hplanned⟩

/-! ## Calls -/

/-- Applying a document leniently is applying the part of it that the model exposes strictly. -/
theorem call_ignore (w : World n) (m : Fin n) (doc : Document) :
    let lenient := w.withPolicy m .ignore
    let strict := w.withPolicy m .reject
    let known : Call n := (m, .apply (w[m].store.exposedPart doc))
    lenient.call (m, .apply doc) = ((strict.call known).1.withPolicy m .ignore,
        (strict.call known).2.map (Outcome.skipping (w[m].store.passedOver doc.state))) ∧
      (lenient.told (m, .apply doc)).map Telling.heard =
        (strict.told known).map Telling.heard := by
  intro lenient strict known
  have hc := perform_respectsMarks (n := n) n
  by_cases hm : m ∈ w.dispatching
  · have hlenient : lenient.call (m, .apply doc) = (lenient, .error .reentrantAccess) :=
      answer_of_marked hm rfl
    have hstrict : strict.call known = (strict, .error .reentrantAccess) :=
      answer_of_marked hm rfl
    refine ⟨?_, ?_⟩
    · rw [hlenient, hstrict, withPolicy_withPolicy]
      rfl
    · rw [told, told, toldBy_of_marked hm, toldBy_of_marked hm]
  · obtain ⟨happly, hheard⟩ := applyDocument_ignore hc w m doc
    have hlenient : lenient.call (m, .apply doc) = _ := answer_of_free hm
    have hstrict : strict.call known = _ := answer_of_free hm
    refine ⟨?_, ?_⟩
    · rw [hlenient, hstrict]
      exact happly
    · rw [told, told, toldBy_of_free hm, toldBy_of_free hm]
      exact hheard

theorem call_reject {doc : Document} {report : Report}
    (h : ((w.withPolicy m .reject).call (m, .apply doc)).2 = .ok (.report report)) :
    w[m].store.passedOver doc.state = [] ∧ report.ignored = [] := by
  by_cases hm : m ∈ w.dispatching
  · have hmarked : (w.withPolicy m .reject).call (m, .apply doc) = _ :=
      answer_of_marked hm rfl
    rw [hmarked] at h
    cases h
  · have hfree : (w.withPolicy m .reject).call (m, .apply doc) = _ := answer_of_free hm
    rw [hfree] at h
    exact applyDocument_reject h

/-- The strict policy accepts a document with a report exactly if the lenient one accepts it with
the same report and passes nothing over, and then the same is left and the same listeners are
told of the same events. Whatever the document, the lenient policy does with it what the strict
one does with its exposed part, and passes over just the keys that are missing from that. -/
theorem policies_differ_on_unknown_keys (w : World n) (m : Fin n) (doc : Document) :
    let lenient := w.withPolicy m .ignore
    let strict := w.withPolicy m .reject
    let unknown := doc.state.filter fun entry => (w[m].store.exposed? entry.key).isNone
    let whole : Call n := (m, .apply doc)
    let known : Call n := (m, .apply (w[m].store.exposedPart doc))
    (∀ report, (strict.call whole).2 = .ok (.report report) ↔
        (lenient.call whole).2 = .ok (.report report) ∧ report.ignored = []) ∧
      (∀ report, (strict.call whole).2 = .ok (.report report) →
        (lenient.call whole).1 = (strict.call whole).1.withPolicy m .ignore ∧
          (lenient.told whole).map Telling.heard = (strict.told whole).map Telling.heard) ∧
      (lenient.call whole).1 = (strict.call known).1.withPolicy m .ignore ∧
      (lenient.call whole).2 =
        (strict.call known).2.map (Outcome.skipping (unknown.map (·.key))) ∧
      (lenient.told whole).map Telling.heard = (strict.told known).map Telling.heard := by
  intro lenient strict unknown whole known
  obtain ⟨hcall, hheard⟩ := call_ignore w m doc
  have hworld : (lenient.call whole).1 = (strict.call known).1.withPolicy m .ignore :=
    congrArg Prod.fst hcall
  have hreply : (lenient.call whole).2 =
      (strict.call known).2.map (Outcome.skipping (unknown.map (·.key))) :=
    congrArg Prod.snd hcall
  -- where nothing is passed over, the exposed part of the document is all of it
  have hwhole : unknown.map (·.key) = [] → known = whole := fun hnone =>
    congrArg (fun part => (m, Operation.apply part)) (Store.exposedPart_of_passedOver hnone)
  refine ⟨fun report => ⟨fun hstrict => ?_, fun ⟨hlenient, hnone⟩ => ?_⟩,
    fun report hstrict => ?_, hworld, hreply, hheard⟩
  · obtain ⟨hpassed, hnone⟩ := call_reject hstrict
    refine ⟨?_, hnone⟩
    rw [hreply, hwhole hpassed, hstrict, show unknown.map (·.key) = [] from hpassed, ← hnone]
    rfl
  · rw [hreply] at hlenient
    obtain ⟨outcome, hstrict, hskip⟩ := map_eq_ok_iff.1 hlenient
    obtain ⟨found, rfl, rfl⟩ := Outcome.skipping_eq_report hskip
    have hfound : found.ignored = [] := (call_reject hstrict).2
    have hsame : found.skipping (unknown.map (·.key)) = found := by
      rw [show unknown.map (·.key) = [] from hnone, Report.skipping, ← hfound]
    rw [hsame, ← hstrict, hwhole hnone]
  · obtain ⟨hpassed, -⟩ := call_reject hstrict
    have hknown : known = whole := hwhole hpassed
    refine ⟨?_, ?_⟩
    · rw [hworld, hknown]
    · exact hheard.trans (congrArg (fun c => (strict.told c).map Telling.heard) hknown)

theorem policies_differ_on_unknown_keys_meddled :
    let known : Document := { state := [⟨"gain", .string "4"⟩] }
    let doc : Document :=
      { state := [⟨"tone", .null⟩, ⟨"gain", .string "4"⟩, ⟨"mode", .string "b"⟩] }
    ((meddled.withPolicy 0 .reject).call (0, .apply known)).2 =
        .ok (.report ⟨["gain"], [], 3⟩) ∧
      ((meddled.withPolicy 0 .ignore).call (0, .apply doc)).2 =
        .ok (.report ⟨["gain"], ["tone", "mode"], 3⟩) ∧
      ((meddled.withPolicy 0 .ignore).call (0, .apply known)).2 =
        .ok (.report ⟨["gain"], [], 3⟩) ∧
      ((meddled.withPolicy 0 .ignore).call (0, .apply known)).1 =
        ((meddled.withPolicy 0 .reject).call (0, .apply known)).1.withPolicy 0 .ignore := by
  intro known doc
  have hknown : meddled[(0 : Fin 1)].store.exposedPart doc = known := by with_unfolding_all decide
  have hunknown : (doc.state.filter fun entry =>
      (meddled[(0 : Fin 1)].store.exposed? entry.key).isNone).map (·.key) = ["tone", "mode"] := by
    with_unfolding_all decide
  have hstrict : ((meddled.withPolicy 0 .reject).call (0, .apply known)).2 =
      .ok (.report ⟨["gain"], [], 3⟩) := by with_unfolding_all decide
  obtain ⟨-, -, -, hreply, -⟩ := policies_differ_on_unknown_keys meddled 0 doc
  rw [hknown, hunknown, hstrict] at hreply
  obtain ⟨hiff, hsame, -⟩ := policies_differ_on_unknown_keys meddled 0 known
  exact ⟨hstrict, hreply, ((hiff _).1 hstrict).1, (hsame _ hstrict).1⟩

end World

end SharedState
