import SharedState.Proofs.Http.Poll
import SharedState.Proofs.Store.Visible
import SharedState.Proofs.World.Application
import SharedState.Proofs.World.Emission

/-!
# What requests can find out

Two models that a client cannot tell apart by looking cannot be told apart by
asking either: whatever requests are sent to both, the answers are the same one
by one, texts of errors included, and the models still look the same afterwards.
Requests do not reach hidden elements at all, neither to read nor to change
them. So a hidden key is to a client what a key is that does not exist, and a
model answers as it would if it had no hidden elements.

Which listeners the two models have does not matter. The listeners hear of what
a submission changes and may do anything to other models, but to this one they
cannot do anything before it is answered.
-/

namespace SharedState

namespace Http

/-- The request is one that an observer of the model makes: for the full model, for
what changed, or to submit updates. -/
def Request.IsClient (request : Request) : Prop :=
  ∃ route ∈ [Route.fullModel, .changes, .updates], request.path = route.path

instance (request : Request) : Decidable request.IsClient :=
  inferInstanceAs (Decidable (∃ route ∈ [Route.fullModel, .changes, .updates], _))

/-- The world after requests to one model, one after another, with the answers. -/
def serve {n : Nat} (settings : Settings) (m : Fin n) (w : World n) :
    List Request → World n × List (Option Response)
  | [] => (w, [])
  | request :: rest =>
    let (w', response) := answer settings w m request
    let (w'', responses) := serve settings m w' rest
    (w'', response :: responses)

end Http

namespace World

variable {n n' : Nat} {m : Fin n} {m' : Fin n'} {w w₁ : World n} {w' : World n'}

/-! ## Models that are asked -/

/-- A model in the state in which requests find it: its store is sound, its watch
shows the revision, and it is not telling its listeners of anything. -/
structure Ready (m : Fin n) (w : World n) : Prop where
  sound : w[m].store.Sound
  watch : w[m].watch = .start w[m].store.revision
  free : m ∉ w.dispatching

theorem Reachable.ready (hr : Reachable m w) (hfree : m ∉ w.dispatching) : Ready m w :=
  ⟨hr.sound, hr.watch, hfree⟩

theorem Ready.leads (h : Ready m w) (hl : Leads m w w₁)
    (hd : w₁.dispatching = w.dispatching) : Ready m w₁ := by
  obtain ⟨log, hlog⟩ := hl
  obtain ⟨commits, hev, -, -⟩ := hlog.evolves h.sound
  refine ⟨hev.sound h.sound, hev.watch h.watch, ?_⟩
  rw [hd]
  exact h.free

theorem Ready.perform (h : Ready m w) (depth : Nat) (op : Operation (Listener n)) :
    Ready m (perform depth w (m, op)).1 :=
  h.leads (leads_perform_self depth w op) ((perform_respectsMarks depth).dispatching w (m, op))

/-- Leaving its hidden elements out leaves a model fit to be asked. -/
theorem Ready.withoutHidden (h : Ready m w) :
    Ready m (w.setStore m w[m].store.withoutHidden) := by
  refine ⟨?_, ?_, h.free⟩
  · rw [setStore_getElem_self]
    exact h.sound.withoutHidden
  · rw [setStore_getElem_self]
    exact h.watch

theorem leads_awaitChanges (known : Nat) (timeout : Duration) (turns : Nat) (w : World n)
    (after : Nat) : Leads m w (Http.awaitChanges m known timeout turns w after).1 := by
  induction turns generalizing w after with
  | zero => exact .of_eq rfl
  | succ turns ih =>
      have hwait : Leads m w (w.waitAsync m after timeout).1 := .of_eq rfl
      rw [Http.awaitChanges]
      rcases hw : w.waitAsync m after timeout with ⟨w₁, outcome⟩
      rw [hw] at hwait
      cases outcome with
      | timedOut | cancelled => exact hwait
      | advanced revision =>
          have hcall := leads_perform_self (n + 1) w₁ (Operation.delta known) (m := m)
          simp only [call]
          rcases hc : World.perform (n + 1) w₁ (m, .delta known) with ⟨w₂, reply⟩
          rw [hc] at hcall
          have hboth := hwait.trans hcall
          rcases reply with e | outcome
          · exact hboth
          · cases outcome with
            | document doc =>
                simp only
                split
                · exact hboth.trans (ih w₂ doc.revision)
                · exact hboth
            | _ => exact hboth

/-! ## Two models at once -/

/-- What has become of two models that were asked the same: they gave the same
answer, can still not be told apart, and have the hidden elements that they had. -/
structure Alike (m : Fin n) (m' : Fin n') (w : World n) (w' : World n')
    (r : World n × Option Http.Response) (r' : World n' × Option Http.Response) : Prop where
  answered : r.2.isSome = true
  response : r'.2 = r.2
  visible : r.1[m].store.VisiblyEqual r'.1[m'].store
  ready : Ready m r.1
  ready' : Ready m' r'.1
  hidden : ∀ key, r.1[m].store.hidden? key = w[m].store.hidden? key
  hidden' : ∀ key, r'.1[m'].store.hidden? key = w'[m'].store.hidden? key

/-- An answer that depends on the request alone. -/
theorem alike_of_same (h : Ready m w) (h' : Ready m' w')
    (hv : w[m].store.VisiblyEqual w'[m'].store) (response : Http.Response) :
    Alike m m' w w' (w, some response) (w', some response) :=
  ⟨rfl, rfl, hv, h, h', fun _ => rfl, fun _ => rfl⟩

theorem call_full (hfree : m ∉ w.dispatching) :
    w.call (m, .full) = ((w.setStore m w[m].store.keepSchema).count (·.countFull),
      .ok (.document w[m].store.fullDocument)) := by
  rw [call, perform, answer_of_free hfree]
  rfl

theorem answerFull_alike (h : Ready m w) (h' : Ready m' w')
    (hv : w[m].store.VisiblyEqual w'[m'].store) :
    Alike m m' w w' (Http.answerCall w (m, .full)) (Http.answerCall w' (m', .full)) where
  answered := rfl
  response := by
    simp only [Http.answerCall, call_full h.free, call_full h'.free, Store.fullDocument,
      hv.documentOf_eq h.sound h'.sound]
  visible := by
    simp only [Http.answerCall, call_full h.free, call_full h'.free, count_getElem,
      setStore_getElem_self]
    exact hv.congr (.keepSchema _) (.keepSchema _)
  ready := h.perform (n + 1) .full
  ready' := h'.perform (n' + 1) .full
  hidden key := by
    simp only [Http.answerCall, call_full h.free, count_getElem, setStore_getElem_self]
    rfl
  hidden' key := by
    simp only [Http.answerCall, call_full h'.free, count_getElem, setStore_getElem_self]
    rfl

theorem touchedAfter_iff (hv : w[m].store.VisiblyEqual w'[m'].store) (revision : Nat) :
    w[m].store.TouchedAfter revision ↔ w'[m'].store.TouchedAfter revision := by
  simp only [Store.TouchedAfter, hv.exposed_eq]

/-- Waiting leaves a model as it was, and ends with an answer that its exposed
elements determine. -/
theorem Ready.answerChanges (h : Ready m w) (settings : Settings) (query : Http.ChangesQuery) :
    let result := Http.answerChanges settings w m query
    Ready m result.1 ∧ Untouched m w result.1 ∧
      (w[m].store.TouchedAfter query.revision → result.2 =
        some (.json 200 (w[m].store.deltaDocument query.revision).render)) ∧
      (¬ w[m].store.TouchedAfter query.revision → result.2 = some (.bare 204)) := by
  intro result
  obtain ⟨w₁, huntouched, htouched, hquiet⟩ :=
    answerChanges_of_sound h.sound h.watch h.free settings query
  have hworld : result.1 = w₁ := by
    by_cases hnew : w[m].store.TouchedAfter query.revision
    · exact congrArg Prod.fst (htouched hnew)
    · exact congrArg Prod.fst (hquiet hnew)
  have huntouched' : Untouched m w result.1 := hworld ▸ huntouched
  refine ⟨h.leads (leads_awaitChanges ..) huntouched'.dispatching, huntouched', ?_, ?_⟩
  · exact fun hnew => congrArg Prod.snd (htouched hnew)
  · exact fun hnone => congrArg Prod.snd (hquiet hnone)

theorem Untouched.visible (h : Untouched m w w₁) : w[m].store.VisiblyEqual w₁[m].store :=
  .of_elements h.policy.symm h.revision.symm h.layout.symm h.elements.symm

theorem Untouched.hidden? (h : Untouched m w w₁) (key : String) :
    w₁[m].store.hidden? key = w[m].store.hidden? key := by
  rw [Store.hidden?, Store.hidden?, h.elements]

theorem answerChanges_alike (h : Ready m w) (h' : Ready m' w')
    (hv : w[m].store.VisiblyEqual w'[m'].store) (settings : Settings)
    (query : Http.ChangesQuery) :
    Alike m m' w w' (Http.answerChanges settings w m query)
      (Http.answerChanges settings w' m' query) := by
  obtain ⟨hready, huntouched, htouched, hquiet⟩ := h.answerChanges settings query
  obtain ⟨hready', huntouched', htouched', hquiet'⟩ := h'.answerChanges settings query
  have hsame : (Http.answerChanges settings w m query).2.isSome = true ∧
      (Http.answerChanges settings w' m' query).2 =
        (Http.answerChanges settings w m query).2 := by
    by_cases hnew : w[m].store.TouchedAfter query.revision
    · rw [htouched hnew, htouched' ((touchedAfter_iff hv _).1 hnew), Store.deltaDocument,
        Store.deltaDocument, hv.documentOf_eq h.sound h'.sound]
      exact ⟨rfl, rfl⟩
    · rw [hquiet hnew, hquiet' fun hnew' => hnew ((touchedAfter_iff hv _).2 hnew')]
      exact ⟨rfl, rfl⟩
  exact ⟨hsame.1, hsame.2, hv.congr huntouched.visible huntouched'.visible, hready, hready',
    huntouched.hidden?, huntouched'.hidden?⟩

/-! ## Submissions -/

theorem hidden?_afterPlanning (s : Store) (doc : Document) (key : String) :
    (s.afterPlanning doc).hidden? key = s.hidden? key := by
  rw [Store.hidden?, Store.hidden?, Store.afterPlanning_elements]

/-- A document changes no hidden element, whether it is taken or not. -/
theorem applyDocument_hidden? {call : World n → Call n → World n × Reply}
    (hc : RespectsMarks call) (hs : w[m].store.Sound) (doc : Document) (key : String) :
    (applyDocument call w m doc).1[m].store.hidden? key = w[m].store.hidden? key := by
  by_cases href : w[m].store.Refuses doc
  · obtain ⟨e, happly⟩ := applyDocument_of_refuses call hs href
    rw [happly, count_getElem, setStore_getElem_self]
    exact hidden?_afterPlanning ..
  · have ht := Store.takes_of_not_refuses href
    rw [applyDocument_store hc hs href, hidden?_afterPlanning]
    exact hs.hidden?_updateAll ht (fun u => Store.exposed?_of_mem_updatesFor) key

/-- Visibly equal models refuse the same documents, for the same reason, and take the
others with the same effect. -/
theorem applyDocument_alike {call : World n → Call n → World n × Reply}
    {call' : World n' → Call n' → World n' × Reply} (hc : RespectsMarks call)
    (hc' : RespectsMarks call') (hs : w[m].store.Sound) (hs' : w'[m'].store.Sound)
    (hv : w[m].store.VisiblyEqual w'[m'].store) (doc : Document) :
    (applyDocument call' w' m' doc).2 = (applyDocument call w m doc).2 ∧
      (applyDocument call w m doc).1[m].store.VisiblyEqual
        (applyDocument call' w' m' doc).1[m'].store := by
  have hplan := hv.plan_eq hs hs' doc
  cases hp : w[m].store.plan doc with
  | error e =>
      rw [applyDocument_of_plan_error call hp,
        applyDocument_of_plan_error call' (hplan.symm.trans hp)]
      refine ⟨rfl, ?_⟩
      simp only [count_getElem, setStore_getElem_self]
      exact hv.congr (.afterPlanning _ doc) (.afterPlanning _ doc)
  | ok plan =>
      have href : ¬ w[m].store.Refuses doc := (hs.plan_eq_ok_iff.1 hp).1
      have href' : ¬ w'[m'].store.Refuses doc :=
        (hs'.plan_eq_ok_iff.1 (hplan.symm.trans hp)).1
      have ht := Store.takes_of_not_refuses href
      have ht' := Store.takes_of_not_refuses href'
      constructor
      · rw [applyDocument_of_not_refuses hc hs href, applyDocument_of_not_refuses hc' hs' href',
          hv.reportFor_eq]
      · rw [applyDocument_store hc hs href, applyDocument_store hc' hs' href']
        rw [← hv.updatesFor_eq] at ht' ⊢
        exact (hv.updateAll hs hs' ht ht').congr (.afterPlanning _ doc) (.afterPlanning _ doc)

theorem answerSubmission_alike (h : Ready m w) (h' : Ready m' w')
    (hv : w[m].store.VisiblyEqual w'[m'].store) (body : ByteArray) :
    Alike m m' w w' (Http.answerCall w (m, .submit body))
      (Http.answerCall w' (m', .submit body)) := by
  have hready : Ready m (w.call (m, .submit body)).1 := h.perform (n + 1) _
  have hready' : Ready m' (w'.call (m', .submit body)).1 := h'.perform (n' + 1) _
  cases hdoc : Document.parse? body with
  | none =>
      have hunread : ∀ {k : Nat} (v : World k) (i : Fin k), v.call (i, .submit body) =
          (v.count (·.countUnreadable), .error .malformedDocument) := by
        intro k v i
        apply answer_of_submission
        simp only [readDocument, hdoc]
        rfl
      have hreply : (w'.call (m', .submit body)).2 = (w.call (m, .submit body)).2 := by
        rw [hunread, hunread]
      refine ⟨rfl, congrArg (some ∘ Http.Response.ofReply) hreply, ?_, hready, hready', ?_, ?_⟩
      · show (w.call _).1[m].store.VisiblyEqual (w'.call _).1[m'].store
        rw [hunread, hunread]
        exact hv
      · intro key
        show (w.call _).1[m].store.hidden? key = _
        rw [hunread]
        rfl
      · intro key
        show (w'.call _).1[m'].store.hidden? key = _
        rw [hunread]
        rfl
  | some doc =>
      have hc := perform_respectsMarks (n := n) n
      have hc' := perform_respectsMarks (n := n') n'
      have happly : w.call (m, .submit body) = applyDocument (perform n) w m doc :=
        submit_of_parse h.free hdoc
      have happly' : w'.call (m', .submit body) = applyDocument (perform n') w' m' doc :=
        submit_of_parse h'.free hdoc
      obtain ⟨hreply, hvisible⟩ := applyDocument_alike hc hc' h.sound h'.sound hv doc
      rw [← happly, ← happly'] at hreply hvisible
      refine ⟨rfl, congrArg (some ∘ Http.Response.ofReply) hreply, hvisible, hready, hready',
        ?_, ?_⟩
      · intro key
        show (w.call _).1[m].store.hidden? key = _
        rw [happly, applyDocument_hidden? hc h.sound]
      · intro key
        show (w'.call _).1[m'].store.hidden? key = _
        rw [happly', applyDocument_hidden? hc' h'.sound]

/-! ## Requests -/

theorem answerAt_alike (h : Ready m w) (h' : Ready m' w')
    (hv : w[m].store.VisiblyEqual w'[m'].store) (settings : Settings) (request : Http.Request)
    {route : Http.Route} (hroute : route ∈ [Http.Route.fullModel, .changes, .updates]) :
    Alike m m' w w' (Http.answerAt settings w m request route)
      (Http.answerAt settings w' m' request route) := by
  cases route with
  | fullModel => exact answerFull_alike h h' hv
  | changes =>
      simp only [Http.answerAt]
      cases Http.ChangesQuery.read? request.query with
      | none => exact alike_of_same h h' hv _
      | some query => exact answerChanges_alike h h' hv settings query
  | updates =>
      simp only [Http.answerAt]
      split
      · exact alike_of_same h h' hv _
      · exact answerSubmission_alike h h' hv request.body
  | health | info | metrics => simp at hroute

theorem Alike.headOnly {r : World n × Option Http.Response} {r' : World n' × Option Http.Response}
    (h : Alike m m' w w' r r') :
    Alike m m' w w' (r.1, r.2.map .headOnly) (r'.1, r'.2.map .headOnly) := by
  refine ⟨?_, ?_, h.visible, h.ready, h.ready', h.hidden, h.hidden'⟩
  · rw [Option.isSome_map]
    exact h.answered
  · rw [h.response]

theorem ofPath?_path (route : Http.Route) : Http.Route.ofPath? route.path = some route := by
  cases route <;> decide

theorem answer_alike (h : Ready m w) (h' : Ready m' w')
    (hv : w[m].store.VisiblyEqual w'[m'].store) (settings : Settings) {request : Http.Request}
    (hclient : request.IsClient) :
    Alike m m' w w' (Http.answer settings w m request)
      (Http.answer settings w' m' request) := by
  obtain ⟨route, hroute, hpath⟩ := hclient
  have hat := answerAt_alike h h' hv settings request hroute
  simp only [Http.answer, hpath, ofPath?_path]
  split
  · exact alike_of_same h h' hv _
  · split
    · exact hat
    · split
      · exact hat.headOnly
      · exact alike_of_same h h' hv _

/-- What becomes of two models over all the requests. -/
theorem serve_alike (h : Ready m w) (h' : Ready m' w')
    (hv : w[m].store.VisiblyEqual w'[m'].store) (settings : Settings)
    {requests : List Http.Request} (hclient : ∀ request ∈ requests, request.IsClient) :
    let served := Http.serve settings m w requests
    let served' := Http.serve settings m' w' requests
    (∀ response ∈ served.2, response.isSome = true) ∧ served'.2 = served.2 ∧
      served.1[m].store.VisiblyEqual served'.1[m'].store ∧
      (∀ key, served.1[m].store.hidden? key = w[m].store.hidden? key) ∧
      ∀ key, served'.1[m'].store.hidden? key = w'[m'].store.hidden? key := by
  induction requests generalizing w w' with
  | nil => exact ⟨nofun, rfl, hv, fun _ => rfl, fun _ => rfl⟩
  | cons request rest ih =>
      have hfirst := answer_alike h h' hv settings (hclient request List.mem_cons_self)
      obtain ⟨hsome, hsame, hvisible, hhidden, hhidden'⟩ :=
        ih hfirst.ready hfirst.ready' hfirst.visible fun other hm =>
          hclient other (List.mem_cons_of_mem request hm)
      refine ⟨?_, ?_, hvisible, fun key => ?_, fun key => ?_⟩
      · exact List.forall_mem_cons.2 ⟨hfirst.answered, hsome⟩
      · simp only [Http.serve, hfirst.response, hsame]
      · exact (hhidden key).trans (hfirst.hidden key)
      · exact (hhidden' key).trans (hfirst.hidden' key)

theorem hidden?_withoutHidden (s : Store) (key : String) :
    s.withoutHidden.hidden? key = none := by
  rw [Store.hidden?, Store.withoutHidden, KeyMap.find?_filter, Option.filter_filter]
  simp

/-- Two models that a client cannot tell apart are asked the same, any number of
times. They give the same answers one by one, can be told apart no better
afterwards, and hold the hidden elements that they held. The same answers come from
a model whose hidden elements are left out, so that their keys do not exist. -/
theorem hidden_elements_unseen (hr : Reachable m w) (hr' : Reachable m' w')
    (hfree : m ∉ w.dispatching) (hfree' : m' ∉ w'.dispatching)
    (hv : w[m].store.VisiblyEqual w'[m'].store) (settings : Settings)
    {requests : List Http.Request} (hclient : ∀ request ∈ requests, request.IsClient) :
    let served := Http.serve settings m w requests
    let served' := Http.serve settings m' w' requests
    let bare := Http.serve settings m (w.setStore m w[m].store.withoutHidden) requests
    ((∀ response ∈ served.2, response.isSome = true) ∧ served'.2 = served.2 ∧
        served.1[m].store.VisiblyEqual served'.1[m'].store) ∧
      (∀ key, served.1[m].store.hidden? key = w[m].store.hidden? key ∧
        served'.1[m'].store.hidden? key = w'[m'].store.hidden? key) ∧
      bare.2 = served.2 ∧ served.1[m].store.VisiblyEqual bare.1[m].store ∧
      ∀ key, bare.1[m].store.hidden? key = none := by
  intro served served' bare
  have h := hr.ready hfree
  obtain ⟨hsome, hsame, hvisible, hhidden, hhidden'⟩ :=
    serve_alike h (hr'.ready hfree') hv settings hclient
  have hbare : w[m].store.VisiblyEqual
      (w.setStore m w[m].store.withoutHidden)[m].store := by
    rw [setStore_getElem_self]
    exact .withoutHidden _
  obtain ⟨-, hsame', hvisible', -, hnone⟩ :=
    serve_alike h h.withoutHidden hbare settings hclient
  refine ⟨⟨hsome, hsame, hvisible⟩, fun key => ⟨hhidden key, hhidden' key⟩, hsame', hvisible',
    fun key => ?_⟩
  rw [hnone key, setStore_getElem_self]
  exact hidden?_withoutHidden ..

/-- A model with an exposed and a hidden element. -/
def masked : World 1 :=
  alone
    [.add { key := "gain", value := .integer 1, constraint := .range (.integer 0) (.integer 8) },
     .add { key := "mode", value := .string "a", exposed := false }]

/-- A model that looks the same, in a world with another one, with another hidden
element and a listener that calls back. -/
def maskedOtherwise : World 2 :=
  ((start (.replicate 2 .ignore)).converse (.last 1)
    [.register (meddler (.last 1)),
     .add { key := "gain", value := .integer 1, constraint := .range (.integer 0) (.integer 8) },
     .add { key := "tone", value := .boolean true, exposed := false }]).2

/-- Requests of a client that tries out which keys there are. -/
def probing : List Http.Request :=
  let get (target : String) : Http.Request := { method := "GET", target := target.toList }
  let post (doc : Document) : Http.Request :=
    { method := "POST", target := "/updateState".toList, body := doc.toBytes }
  [get "/getExposedModel",
   post { schema := some ⟨[⟨"tone", .float, none, none⟩]⟩,
          state := [⟨"mode", .null⟩, ⟨"gain", .string "4"⟩] },
   post { state := [⟨"tone", .bool false⟩, ⟨"gain", .string "9"⟩] },
   get "/getExposedModelUpdate?revision=2&timeout_ms=5"]

theorem hidden_elements_unseen_probing :
    (Http.serve {} (.last 1) maskedOtherwise probing).2 = (Http.serve {} 0 masked probing).2 ∧
      ((Http.serve {} 0 masked probing).2.map (·.map (·.status))) =
        [some 200, some 200, some 409, some 200] ∧
      (Http.serve {} 0 masked probing).1[(0 : Fin 1)].store.hidden? "mode" =
        masked[(0 : Fin 1)].store.hidden? "mode" := by
  have hr : Reachable 0 masked := reachable_alone _
  have hr' : Reachable (.last 1) maskedOtherwise :=
    ⟨_, start (.replicate 2 .ignore), start_getElem _ (.last 1), _, history_converse _ _ _⟩
  have hfree : (0 : Fin 1) ∉ masked.dispatching := free_alone _
  have hfree' : Fin.last 1 ∉ maskedOtherwise.dispatching :=
    free_converse (.last 1) _ List.not_mem_nil
  have hv : masked[(0 : Fin 1)].store.VisiblyEqual maskedOtherwise[Fin.last 1].store := by
    apply Store.VisiblyEqual.of_values hr.sound hr'.sound <;> with_unfolding_all decide
  have hclient : ∀ request ∈ probing, request.IsClient := by decide
  obtain ⟨⟨-, hsame, -⟩, hhidden, -⟩ :=
    hidden_elements_unseen hr hr' hfree hfree' hv {} hclient
  refine ⟨hsame, ?_, (hhidden "mode").1⟩
  -- Only the kernel gets through the bytes of the submitted documents in good time.
  decide +kernel

end World

end SharedState
