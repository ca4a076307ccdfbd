import SharedState.Proofs.Store.Document
import SharedState.Proofs.World.Restoration

/-!
# Schemas are current

A model generates its schema when it is asked for one and keeps it, whoever
asked: a request for the schema, a document, or the application of a document
that declares shapes, be it refused or not. It throws the kept schema away when
an element is added, annotated or removed, and not when one is updated.

That is often enough. However calls were mixed, whatever is told of the schema
is what the elements amount to that the model holds now, entry by entry and in
the order of the keys; and declared shapes are compared with that.
-/

namespace SharedState

namespace Store

variable {s : Store}

/-- Declared shapes are looked at first, and after that they do not matter. -/
theorem plan_of_declared {doc : Document} {declared : Schema} (h : doc.schema = some declared) :
    s.plan doc =
      (s.schema.compare declared.elements >>= fun _ => s.plan { doc with schema := none }) := by
  rw [plan, h]
  rfl

end Store

namespace World

variable {n : Nat} {m : Fin n} {w : World n} {doc : Document} {declared : Schema}
  {call : World n → Call n → World n × Reply}

theorem applyDocument_reply (hc : RespectsMarks call) (hs : w[m].store.Sound) (doc : Document) :
    (applyDocument call w m doc).2 =
      (w[m].store.plan doc).map fun _ => .report (w[m].store.reportFor doc) := by
  cases hp : w[m].store.plan doc with
  | error e =>
      rw [applyDocument_of_plan_error call hp]
      rfl
  | ok plan =>
      rw [applyDocument_of_not_refuses hc hs (hs.plan_eq_ok_iff.1 hp).1]
      rfl

/-- A document that declares shapes is refused for the first that is not the model's, or
it is answered like one that declares none. -/
theorem applyDocument_of_declared (hc : RespectsMarks call) (hs : w[m].store.Sound)
    (h : doc.schema = some declared) :
    (applyDocument call w m doc).2 =
      match (Schema.generate w[m].store.elements.values).compare declared.elements with
      | .error e => .error e
      | .ok _ => (applyDocument call w m { doc with schema := none }).2 := by
  rw [applyDocument_reply hc hs, applyDocument_reply hc hs, Store.plan_of_declared h,
    hs.schema_eq]
  cases (Schema.generate w[m].store.elements.values).compare declared.elements with
  | error e => rfl
  | ok _ => rfl

/-- The schema of a model is never stale. Whatever has been asked of the model before,
the kept schema, the schemas that it answers with, those in its documents and the one
that declared shapes are compared with are the schema of the elements that it holds,
which has one entry for each exposed element, in the order of the keys. -/
theorem schema_never_stale (hr : Reachable m w) :
    let s := w[m].store
    let described := Schema.generate s.elements.values
    (∀ schema, s.cachedSchema = some schema → schema = described) ∧
      (∀ depth op,
        (∀ schema, (perform depth w (m, op)).2 = .ok (.schema schema) → schema = described) ∧
          ∀ doc, (perform depth w (m, op)).2 = .ok (.document doc) →
            doc.schema = some described) ∧
      (m ∉ w.dispatching → ∀ depth,
        (perform (depth + 1) w (m, .schema)).2 = .ok (.schema described) ∧
          (perform (depth + 1) w (m, .full)).2 = .ok (.document s.fullDocument) ∧
          (∀ since, (perform (depth + 1) w (m, .delta since)).2 =
            .ok (.document (s.deltaDocument since))) ∧
          ∀ op doc declared, readDocument op = .apply doc → doc.schema = some declared →
            (perform (depth + 1) w (m, op)).2 =
              match described.compare declared.elements with
              | .error e => .error e
              | .ok _ => (perform (depth + 1) w (m, .apply { doc with schema := none })).2) ∧
      (described.elements.map (·.key)).Pairwise (· < ·) ∧
      ∀ entry, entry ∈ described.elements ↔ ∃ e, s.exposed? entry.key = some e ∧
        entry = { key := e.key, shape := .ofKind e.value.kind,
                  restriction := Restriction.ofConstraint? e.constraint, label := e.label } := by
  intro s described
  have hs : s.Sound := hr.sound
  have hcurrent : s.schema = described := hs.schema_eq
  refine ⟨fun _ => hs.current, ?_, ?_, hs.generate_ordered, ?_⟩
  · intro depth op
    have htold : ∀ schema, (perform depth w (m, op)).2 = .ok (.schema schema) →
        schema = s.schema := fun schema h => tellsOf_perform h
    refine ⟨fun schema h => (htold schema h).trans hcurrent, fun doc h => ?_⟩
    obtain ⟨wanted, rfl⟩ := document_of_perform h
    exact congrArg some hcurrent
  · intro hfree depth
    refine ⟨?_, ?_, fun since => ?_, fun op doc declared hread hdeclared => ?_⟩
    · rw [perform, answer_of_free hfree, ← hcurrent]
      rfl
    · rw [perform, answer_of_free hfree]
      rfl
    · rw [perform, answer_of_free hfree]
      rfl
    · rw [perform_of_readDocument hfree hread, perform_of_readDocument hfree rfl]
      exact applyDocument_of_declared (perform_respectsMarks depth) hs hdeclared
  · intro entry
    rw [← hcurrent]
    exact hs.mem_schema_iff

/-- A model whose schema was kept time and again, by a refused application at the end,
while elements came, changed and went. -/
def redescribed : World 1 :=
  alone
    [.add { key := "gain", value := .integer 1, constraint := .range (.integer 0) (.integer 8) },
     .schema,
     .add { key := "mode", value := .string "a", exposed := false },
     .update "gain" (.integer 2),
     .full,
     .remove "gain",
     .add { key := "gain", value := .boolean true },
     .delta 2,
     .annotate "gain" "Gain",
     .apply { schema := some ⟨[⟨"gain", .integer, none, none⟩]⟩,
              state := [⟨"gain", .bool false⟩] },
     .update "gain" (.boolean false)]

theorem schema_never_stale_redescribed :
    redescribed[(0 : Fin 1)].store.cachedSchema =
        some ⟨[⟨"gain", .boolean, none, some "Gain"⟩]⟩ ∧
      (perform 2 redescribed (0, .schema)).2 =
        .ok (.schema ⟨[⟨"gain", .boolean, none, some "Gain"⟩]⟩) ∧
      (perform 2 redescribed (0, .apply { schema := some ⟨[⟨"gain", .float, none, none⟩]⟩ })).2 =
        .error (.schemaMismatch "gain" "float" "boolean") := by
  have hr : Reachable 0 redescribed := reachable_alone _
  have hfree : (0 : Fin 1) ∉ redescribed.dispatching := free_alone _
  have hkept : redescribed[(0 : Fin 1)].store.cachedSchema =
      some ⟨[⟨"gain", .boolean, none, some "Gain"⟩]⟩ := by
    with_unfolding_all decide
  obtain ⟨hcopy, -, hanswers, -⟩ := schema_never_stale hr
  obtain ⟨hschema, -, -, happly⟩ := hanswers hfree 1
  have hmismatch := happly (.apply { schema := some ⟨[⟨"gain", .float, none, none⟩]⟩ }) _ _
    rfl rfl
  rw [← hcopy _ hkept] at hschema hmismatch
  exact ⟨hkept, hschema, hmismatch⟩

end World

end SharedState
