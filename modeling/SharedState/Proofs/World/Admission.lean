import SharedState.Proofs.Schema.Restriction
import SharedState.Proofs.World.Description

/-!
# Which updates a model accepts

A document with one value and no schema is refused because of that value or
not at all. What decides is the kind and the constraint of the element, and
both are published: the schema that a model answers with is enough to tell
beforehand which updates the model accepts.

One thing is not as a reader of the schema would expect. A set of values is
published as it was given, and a member that is not a number, or holds one
that is none, is refused when it is sent back.
-/

namespace SharedState

/-- The document declares no shapes and carries one value. -/
def Document.CarriesOnly (doc : Document) (key : String) (wire : Json) : Prop :=
  doc.schema = none ∧ doc.state = [⟨key, wire⟩]

namespace Store

variable {s : Store} {key : String} {e : Element} {doc : Document} {wire : Json}

theorem Sound.plan_of_carriesOnly (h : s.Sound) (hx : s.exposed? key = some e)
    (hd : doc.CarriesOnly key wire) :
    s.plan doc =
      match Value.ofWire key e.kind wire with
      | .error error => .error error
      | .ok value =>
        if e.constraint.admits value then .ok { updates := [(key, value)] }
        else .error (.constraintViolation key (e.constraint.breach value)) := by
  obtain ⟨hschema, hstate⟩ := hd
  rw [plan, hschema, hstate]
  show (s.planEntry ⟨key, wire⟩ >>= _) = _
  simp only [planEntry, hx]
  cases hv : Value.ofWire key e.kind wire with
  | error error => rfl
  | ok value =>
      show (s.checkUpdate key value >>= _) >>= _ = if _ then _ else _
      rw [h.checkUpdate_of_ofWire hx hv, Constraint.check]
      by_cases ha : e.constraint.admits value = true
      · rw [if_pos ha, if_pos ha]
        rfl
      · rw [if_neg ha, if_neg ha]
        rfl

theorem Sound.schema_find?_of_exposed (h : s.Sound) (hx : s.exposed? key = some e) :
    s.schema.find? key = some (.describe e) := by
  rw [h.schema_find?, hx]
  rfl

theorem Sound.fits_of_exposed (h : s.Sound) (hx : s.exposed? key = some e) :
    e.constraint.Fits e.kind :=
  Constraint.validateFor_eq_ok_iff.1 (h.wellFormed (Store.exposed?_eq_some_iff.1 hx).1).valid

end Store

namespace World

variable {n : Nat} {m : Fin n} {w : World n} {doc : Document} {key : String} {wire : Json}
  {e : Element} {value : Value} {call : World n → Call n → World n × Reply}

/-- A document with one value is applied exactly if the value is read and admitted. -/
theorem applyDocument_accepts_iff (hc : RespectsMarks call) (hs : w[m].store.Sound)
    (hx : w[m].store.exposed? key = some e) (hd : doc.CarriesOnly key wire) :
    (∃ outcome, (applyDocument call w m doc).2 = .ok outcome) ↔
      ∃ value, Value.ofWire key e.kind wire = .ok value ∧ e.constraint.admits value = true := by
  rw [applyDocument_reply hc hs, hs.plan_of_carriesOnly hx hd]
  cases Value.ofWire key e.kind wire with
  | error error => simp [Except.map]
  | ok value =>
      by_cases ha : e.constraint.admits value = true
      · simp [Except.map, ha]
      · simp [Except.map, ha]

/-- A value that is admitted is stored under the next revision. -/
theorem applyDocument_of_admits (hc : RespectsMarks call) (hs : w[m].store.Sound)
    (hx : w[m].store.exposed? key = some e) (hd : doc.CarriesOnly key wire)
    (hv : Value.ofWire key e.kind wire = .ok value) (ha : e.constraint.admits value = true) :
    (applyDocument call w m doc).2 =
        .ok (.report { applied := [key], revision := w[m].store.revision + 1 }) ∧
      (applyDocument call w m doc).1[m].store.elements.find? key =
        some { e with value, lastModified := w[m].store.revision + 1 } := by
  have hplan := hs.plan_of_carriesOnly hx hd
  rw [hv] at hplan
  simp only [ha, if_true] at hplan
  obtain ⟨hrefuses, hparts⟩ := hs.plan_eq_ok_iff.1 hplan
  obtain ⟨hupdates, hignored⟩ := Plan.mk.inj hparts
  have hu : w[m].store.checkUpdate key value = .ok () :=
    Store.takes_of_not_refuses hrefuses (key, value) (hupdates ▸ List.mem_singleton_self _)
  constructor
  · rw [applyDocument_reply hc hs, hplan, Store.reportFor, ← hupdates, ← hignored]
    rfl
  · rw [applyDocument_store hc hs hrefuses, Store.afterPlanning_elements, ← hupdates]
    show (w[m].store.updated (key, value)).elements.find? key = _
    rw [hs.find?_updated hu, if_pos rfl, (Store.exposed?_eq_some_iff.1 hx).1]
    rfl

/-- A value that is not admitted is refused. -/
theorem applyDocument_of_not_admits (hc : RespectsMarks call) (hs : w[m].store.Sound)
    (hx : w[m].store.exposed? key = some e) (hd : doc.CarriesOnly key wire)
    (hv : Value.ofWire key e.kind wire = .ok value) (ha : ¬ e.constraint.admits value = true) :
    (applyDocument call w m doc).2 =
      .error (.constraintViolation key (e.constraint.breach value)) := by
  have hplan := hs.plan_of_carriesOnly hx hd
  rw [hv] at hplan
  simp only [ha] at hplan
  rw [applyDocument_reply hc hs, hplan]
  rfl

/-- The published restriction is exactly what is enforced. A document that carries one wire value
for an exposed key is accepted if the value can be read as the kind of the element and the
restriction that the schema lists for the key, if it lists one, allows what was read, and only
then; so the schema alone foresees the answer. -/
theorem restriction_enforced (hr : Reachable m w) (hfree : m ∉ w.dispatching)
    (hx : w[m].store.exposed? key = some e) :
    let schema := w[m].store.schema
    ∃ entry, schema.find? key = some entry ∧ entry.shape = .ofKind e.kind ∧
      (∀ depth, (perform (depth + 1) w (m, .schema)).2 = .ok (.schema schema)) ∧
      (∀ min max v, entry.restriction = some (.range min max) →
        (Restriction.range min max).Allows key e.kind v → v ≠ .float .nan) ∧
      ∀ wire op doc depth, readDocument op = .apply doc → doc.CarriesOnly key wire →
        ((∃ outcome, (perform (depth + 1) w (m, op)).2 = .ok outcome) ↔
          ∃ v, Value.ofWire key e.kind wire = .ok v ∧
            ∀ r, entry.restriction = some r → r.Allows key e.kind v) ∧
        (schema.foresees key wire = true ↔
          ∃ outcome, (perform (depth + 1) w (m, op)).2 = .ok outcome) := by
  intro schema
  have hs : w[m].store.Sound := hr.sound
  have hentry : schema.find? key = some (.describe e) := hs.schema_find?_of_exposed hx
  have hfits := hs.fits_of_exposed hx
  refine ⟨.describe e, hentry, rfl, fun depth => ?_, fun _ _ _ _ hallows =>
    Restriction.ne_nan_of_allows_range hallows, fun wire op doc depth hread hd => ?_⟩
  · rw [perform, answer_of_free hfree]
    rfl
  · have haccepts : (∃ outcome, (perform (depth + 1) w (m, op)).2 = .ok outcome) ↔
        ∃ v, Value.ofWire key e.kind wire = .ok v ∧
          ∀ r, (SchemaEntry.describe e).restriction = some r → r.Allows key e.kind v := by
      rw [perform_of_readDocument hfree hread,
        applyDocument_accepts_iff (perform_respectsMarks depth) hs hx hd]
      exact exists_congr fun v => and_congr_right fun _ => hfits.allows_iff.symm
    exact ⟨haccepts, (Schema.foresees_iff hentry rfl).trans haccepts.symm⟩

/-- The application of a document with one value. -/
def send (key : String) (wire : Json) : Operation (Listener n) :=
  .apply { state := [⟨key, wire⟩] }

/-- A model with a range that has no end and a set of matrices. -/
def guarded : World 1 :=
  alone
    [.add { key := "gain", value := .float (.ofDecimal false ⟨5, -1⟩),
            constraint := .range (.float .zero) (.float (.atPlace false Format.double.infinity)) },
     .add { key := "pose", value := .matrix .identity,
            constraint := .allowed [.matrix .identity] }]

theorem restriction_enforced_guarded :
    let s := guarded[(0 : Fin 1)].store
    (∃ outcome, (perform 2 guarded (0, send "gain" (.string " 1e400 "))).2 = .ok outcome) ∧
      (¬ ∃ outcome, (perform 2 guarded (0, send "gain" (.string "NaN"))).2 = .ok outcome) ∧
      s.schema.foresees "gain" (.string "-1") = false ∧
      ∃ outcome, (perform 2 guarded
        (0, send "pose" (.string "1 0 0 0 0 1 0 0 0 0 1 0 0 0 0 1"))).2 = .ok outcome := by
  intro s
  have hr : Reachable 0 guarded := reachable_alone _
  have hfree : (0 : Fin 1) ∉ guarded.dispatching := free_alone _
  have hgain : s.exposed? "gain" = some ⟨"gain", .float (.ofDecimal false ⟨5, -1⟩),
      .range (.float .zero) (.float (.atPlace false Format.double.infinity)), none, 1, true⟩ := by
    with_unfolding_all decide
  have hpose : s.exposed? "pose" = some ⟨"pose", .matrix .identity,
      .allowed [.matrix .identity], none, 2, true⟩ := by
    with_unfolding_all decide
  obtain ⟨_, -, -, -, -, hgains⟩ := restriction_enforced hr hfree hgain
  obtain ⟨_, -, -, -, -, hposes⟩ := restriction_enforced hr hfree hpose
  have hsent := fun wire => hgains wire (send "gain" wire) _ 1 rfl ⟨rfl, rfl⟩
  refine ⟨(hsent _).2.1 ?_, fun haccepted => absurd ((hsent _).2.2 haccepted) ?_, ?_,
    (hposes _ (send "pose" _) _ 1 rfl ⟨rfl, rfl⟩).2.1 ?_⟩ <;> with_unfolding_all decide

/-- Every value that the schema of a model names for an exposed key, the bounds of a range and the
members of a set, is read back as the value that was meant, and is accepted and stored when it is
sent back, unless something in it is not a number. Then it is a member of a set, and it is
refused. -/
theorem advertised_accepted (hr : Reachable m w) (hfree : m ∉ w.dispatching)
    (hx : w[m].store.exposed? key = some e) :
    ∃ entry, w[m].store.schema.find? key = some entry ∧
      ∀ r, entry.restriction = some r → ∀ wire ∈ r.named,
        ∃ v, Value.ofWire key e.kind wire = .ok v ∧ wire = v.toWire ∧
          ((∃ min max, r = .range min max) → ¬ v.HoldsNaN) ∧
          ∀ op doc depth, readDocument op = .apply doc → doc.CarriesOnly key wire →
            let turn := perform (depth + 1) w (m, op)
            (¬ v.HoldsNaN →
              turn.2 = .ok (.report { applied := [key], revision := w[m].store.revision + 1 }) ∧
                turn.1[m].store.elements.find? key =
                  some { e with value := v, lastModified := w[m].store.revision + 1 }) ∧
            (v.HoldsNaN →
              turn.2 = .error (.constraintViolation key (e.constraint.breach v)) ∧
                Untouched m w turn.1) := by
  have hs : w[m].store.Sound := hr.sound
  refine ⟨.describe e, hs.schema_find?_of_exposed hx, fun r hr wire hwire => ?_⟩
  obtain ⟨v, hv, hwire, hadmits, hrange⟩ := (hs.fits_of_exposed hx).named key hr hwire
  refine ⟨v, hv, hwire, hrange, fun op doc depth hread hd => ?_⟩
  have hc : RespectsMarks (perform (n := n) depth) := perform_respectsMarks depth
  refine ⟨fun hnumber => ?_, fun hnan => ?_⟩
  · rw [perform_of_readDocument hfree hread]
    exact applyDocument_of_admits hc hs hx hd hv (hadmits.2 hnumber)
  · have hrefused : (perform (depth + 1) w (m, op)).2 =
        .error (.constraintViolation key (e.constraint.breach v)) := by
      rw [perform_of_readDocument hfree hread]
      exact applyDocument_of_not_admits hc hs hx hd hv fun ha => hadmits.1 ha hnan
    exact ⟨hrefused, perform_untouched (depth + 1) hs hrefused⟩

/-- A model with a set that has a member which is not a number. -/
def offering : World 1 :=
  alone
    [.add { key := "gain", value := .float .zero,
            constraint := .allowed [.float .zero, .float .nan] }]

theorem advertised_accepted_offering :
    (perform 2 offering (0, send "gain" (Value.floatWire .zero))).2 =
      .ok (.report { applied := ["gain"], revision := 2 }) := by
  have hr : Reachable 0 offering := reachable_alone _
  have hfree : (0 : Fin 1) ∉ offering.dispatching := free_alone _
  have hx : offering[(0 : Fin 1)].store.exposed? "gain" = some ⟨"gain", .float .zero,
      .allowed [.float .zero, .float .nan], none, 1, true⟩ := by
    with_unfolding_all decide
  have hrevision : offering[(0 : Fin 1)].store.revision = 1 := by with_unfolding_all decide
  have hnames : (offering[(0 : Fin 1)].store.schema.find? "gain").bind (·.restriction) =
      some (.enumeration [Value.floatWire .zero, .string "NaN"]) := by
    with_unfolding_all decide
  have hread : Value.ofWire "gain" .float (Value.floatWire .zero) = .ok (.float .zero) := by
    decide
  obtain ⟨entry, hentry, hadvertised⟩ := advertised_accepted hr hfree hx
  rw [hentry] at hnames
  obtain ⟨v, hv, -, -, hanswer⟩ := hadvertised _ hnames (Value.floatWire .zero)
    List.mem_cons_self
  obtain rfl : Value.float .zero = v := Except.ok.inj (hread.symm.trans hv)
  have hstored := (hanswer (send "gain" _) _ 1 rfl ⟨rfl, rfl⟩).1 (by decide)
  rw [hrevision] at hstored
  exact hstored.1

/-- The schema names a value that the model refuses. -/
theorem advertised_nan_refused :
    (perform 2 offering (0, .schema)).2 =
        .ok (.schema ⟨[⟨"gain", .float,
          some (.enumeration [Value.floatWire .zero, .string "NaN"]), none⟩]⟩) ∧
      (perform 2 offering (0, send "gain" (.string "NaN"))).2 =
        .error (.constraintViolation "gain" "NaN is not one of the allowed values") := by
  constructor
  · with_unfolding_all decide
  · with_unfolding_all decide

end World

end SharedState
