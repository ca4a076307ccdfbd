import SharedState.Proofs.Store.Document
import SharedState.Store.Plan

/-!
# When a document is refused

`Store.plan` walks over a document and stops at the first offence. This file
says what it comes to without the walk: which documents are refused at all,
`Store.Refuses`, and which updates and which keys passed over are planned for
the others, `Store.updatesFor` and `Store.passedOver`, both read off the
entries one by one and in their order.

The comparison of shapes goes through the kept schema of the store, so it
needs the invariant: what a sound store keeps is the schema of its elements,
and that lists a key exactly if the key is exposed.
-/

namespace SharedState

namespace Store

variable {s : Store}

/-- Why a store refuses a document. -/
inductive Refuses (s : Store) (doc : Document) : Prop
  /-- A declared shape of an exposed key is not the shape of its kind. -/
  | shape {schema entry e} : doc.schema = some schema → entry ∈ schema.elements →
      s.exposed? entry.key = some e → entry.shape ≠ .ofKind e.kind → Refuses s doc
  /-- A value for an exposed key cannot be read as its kind. -/
  | unreadable {entry e error} : entry ∈ doc.state → s.exposed? entry.key = some e →
      Value.ofWire entry.key e.kind entry.value = .error error → Refuses s doc
  /-- A value for an exposed key breaks its constraint. -/
  | inadmissible {entry e value} : entry ∈ doc.state → s.exposed? entry.key = some e →
      Value.ofWire entry.key e.kind entry.value = .ok value →
      e.constraint.admits value = false → Refuses s doc
  /-- A key is not exposed, and the policy does not let it pass. -/
  | unknown {entry} : s.policy = .reject → entry ∈ doc.state →
      s.exposed? entry.key = none → Refuses s doc

/-- The value that an entry gives to an exposed key, if it can be read. -/
def valueFor? (s : Store) (entry : Entry) : Option Value :=
  (s.exposed? entry.key).bind fun e => (Value.ofWire entry.key e.kind entry.value).toOption

/-- The updates that entries ask of a store, in their order. -/
def updatesFor (s : Store) (entries : List Entry) : List (String × Value) :=
  entries.filterMap fun entry => (s.valueFor? entry).map (entry.key, ·)

/-- The keys of entries that a store does not expose, in their order. -/
def passedOver (s : Store) (entries : List Entry) : List String :=
  (entries.filter fun entry => (s.exposed? entry.key).isNone).map (·.key)

/-- What applying a document that is not refused reports. -/
def reportFor (s : Store) (doc : Document) : Report where
  applied := (s.updatesFor doc.state).map (·.1)
  ignored := s.passedOver doc.state
  revision := s.revision + (s.updatesFor doc.state).length

/-- All of the updates would be accepted. -/
def Takes (s : Store) (updates : List (String × Value)) : Prop :=
  ∀ u ∈ updates, s.checkUpdate u.1 u.2 = .ok ()

/-! ## One entry -/

/-- Nothing about the entry is an offence. -/
def Passes (s : Store) (entry : Entry) : Prop :=
  match s.exposed? entry.key with
  | some e => ∃ value, Value.ofWire entry.key e.kind entry.value = .ok value ∧
      e.constraint.admits value = true
  | none => s.policy = .ignore

theorem planEntry_eq_ok_iff {entry : Entry} {found : Option Value} :
    s.planEntry entry = .ok found ↔ s.Passes entry ∧ found = s.valueFor? entry := by
  unfold planEntry Passes valueFor?
  cases hx : s.exposed? entry.key with
  | none =>
      cases hp : s.policy with
      | ignore =>
          constructor
          · intro h
            cases h
            exact ⟨rfl, rfl⟩
          · intro h
            rw [h.2]
            rfl
      | reject => exact ⟨nofun, fun ⟨h, _⟩ => nomatch h⟩
  | some e =>
      simp only [bind_eq_ok_iff, Option.bind_some, checkUpdate_of_exposed hx]
      constructor
      · intro h
        obtain ⟨value, hv, _, hc, hf⟩ := h
        cases hf
        refine ⟨⟨value, hv, (Element.checkUpdate_eq_ok_iff.1 hc).2⟩, ?_⟩
        rw [hv]
        rfl
      · intro h
        obtain ⟨⟨value, hv, ha⟩, hf⟩ := h
        have hkind : e.kind = value.kind := (Value.kind_of_ofWire hv).symm
        rw [hv] at hf
        exact ⟨value, hv, (), Element.checkUpdate_eq_ok_iff.2 ⟨hkind, ha⟩, hf ▸ rfl⟩

/-- What was read for a key has the kind of its element, which leaves the constraint to check. -/
theorem Sound.checkUpdate_of_ofWire (h : s.Sound) {key : String} {e : Element} {wire : Json}
    {value : Value} (hx : s.exposed? key = some e)
    (hv : Value.ofWire key e.kind wire = .ok value) :
    s.checkUpdate key value = e.constraint.check key value := by
  have hkind : e.kind = value.kind := (Value.kind_of_ofWire hv).symm
  have hkey : e.key = key := h.keyed (Store.exposed?_eq_some_iff.1 hx).1
  rw [checkUpdate_of_exposed hx, Element.checkUpdate, if_pos hkind, hkey]

theorem Passes.checkUpdate {entry : Entry} {value : Value} (h : s.Passes entry)
    (hv : s.valueFor? entry = some value) : s.checkUpdate entry.key value = .ok () := by
  unfold Passes at h
  unfold valueFor? at hv
  cases hx : s.exposed? entry.key with
  | none => rw [hx] at hv; cases hv
  | some e =>
      rw [hx] at h hv
      obtain ⟨value', hw, ha⟩ := h
      rw [Option.bind_some, hw] at hv
      cases hv
      exact checkUpdate_eq_ok_iff.2 ⟨e, (exposed?_eq_some_iff.1 hx).1,
        Element.checkUpdate_eq_ok_iff.2 ⟨(Value.kind_of_ofWire hw).symm, ha⟩⟩

theorem Passes.valueFor?_eq_none_iff {entry : Entry} (h : s.Passes entry) :
    s.valueFor? entry = none ↔ s.exposed? entry.key = none := by
  unfold Passes at h
  unfold valueFor?
  cases hx : s.exposed? entry.key with
  | none => exact ⟨fun _ => rfl, fun _ => rfl⟩
  | some e =>
      rw [hx] at h
      obtain ⟨value, hw, -⟩ := h
      rw [Option.bind_some, hw]
      exact ⟨nofun, nofun⟩

/-! ## All entries -/

theorem Passes.plan_cons {entry : Entry} {rest : List Entry} (h : s.Passes entry) :
    (match s.valueFor? entry with
      | some value => Except.ok
          { updates := (entry.key, value) :: s.updatesFor rest, ignored := s.passedOver rest }
      | none => .ok
          { updates := s.updatesFor rest, ignored := entry.key :: s.passedOver rest }) =
      (.ok ⟨s.updatesFor (entry :: rest), s.passedOver (entry :: rest)⟩ : Except Error Plan) := by
  have hnone := h.valueFor?_eq_none_iff
  cases hv : s.valueFor? entry with
  | none => simp [updatesFor, passedOver, hv, hnone.1 hv]
  | some value =>
      have hx : (s.exposed? entry.key).isNone = false := by
        rw [Option.isNone_eq_false_iff, Option.isSome_iff_ne_none]
        intro hf
        rw [hnone.2 hf] at hv
        cases hv
      simp [updatesFor, passedOver, hv, hx]

theorem planEntries_eq_ok_iff {entries : List Entry} {plan : Plan} :
    s.planEntries entries = .ok plan ↔
      (∀ entry ∈ entries, s.Passes entry) ∧
        plan = ⟨s.updatesFor entries, s.passedOver entries⟩ := by
  induction entries generalizing plan with
  | nil =>
      constructor
      · intro h
        cases h
        exact ⟨nofun, rfl⟩
      · intro h
        rw [h.2]
        rfl
  | cons entry rest ih =>
      simp only [planEntries, bind_eq_ok_iff, planEntry_eq_ok_iff, ih, List.forall_mem_cons]
      constructor
      · intro h
        obtain ⟨found, ⟨hp, rfl⟩, _, ⟨hrest, rfl⟩, hplan⟩ := h
        have hcons := hplan.symm.trans hp.plan_cons
        cases hcons
        exact ⟨⟨hp, hrest⟩, rfl⟩
      · intro h
        obtain ⟨⟨hp, hrest⟩, rfl⟩ := h
        exact ⟨_, ⟨hp, rfl⟩, _, ⟨hrest, rfl⟩, hp.plan_cons⟩

theorem takes_updatesFor {entries : List Entry} (h : ∀ entry ∈ entries, s.Passes entry) :
    s.Takes (s.updatesFor entries) := by
  intro u hu
  obtain ⟨entry, he, hu⟩ := List.mem_filterMap.1 hu
  obtain ⟨value, hv, rfl⟩ := Option.map_eq_some_iff.1 hu
  exact (h entry he).checkUpdate hv

/-! ## The declared schema -/

/-- Looking at a document changes at most which schema is kept. -/
theorem afterPlanning_eq_or (s : Store) (doc : Document) :
    s.afterPlanning doc = s ∨ s.afterPlanning doc = s.keepSchema := by
  unfold afterPlanning
  split
  · exact .inr rfl
  · exact .inl rfl

@[simp] theorem afterPlanning_elements (s : Store) (doc : Document) :
    (s.afterPlanning doc).elements = s.elements := by
  rcases s.afterPlanning_eq_or doc with heq | heq <;> rw [heq]; rfl

@[simp] theorem afterPlanning_revision (s : Store) (doc : Document) :
    (s.afterPlanning doc).revision = s.revision := by
  rcases s.afterPlanning_eq_or doc with heq | heq <;> rw [heq]; rfl

@[simp] theorem afterPlanning_layout (s : Store) (doc : Document) :
    (s.afterPlanning doc).layout = s.layout := by
  rcases s.afterPlanning_eq_or doc with heq | heq <;> rw [heq]; rfl

theorem Sound.afterPlanning (h : s.Sound) (doc : Document) : (s.afterPlanning doc).Sound := by
  rcases s.afterPlanning_eq_or doc with heq | heq
  · rwa [heq]
  · rw [heq]; exact h.keepSchema

theorem Takes.afterPlanning {updates : List (String × Value)} (h : s.Takes updates)
    (doc : Document) : (s.afterPlanning doc).Takes updates := by
  rcases s.afterPlanning_eq_or doc with heq | heq
  · rwa [heq]
  · rw [heq]; exact h

theorem compare_eq_ok_iff {known : Schema} {declared : List SchemaEntry} :
    known.compare declared = .ok () ↔
      ∀ entry ∈ declared, ∀ local', known.find? entry.key = some local' →
        entry.shape = local'.shape := by
  induction declared with
  | nil => exact ⟨fun _ => nofun, fun _ => rfl⟩
  | cons entry rest ih =>
      rw [Schema.compare, List.forall_mem_cons]
      cases hf : known.find? entry.key with
      | none =>
          simp only [ih, reduceCtorEq, false_imp_iff, implies_true, true_and]
      | some own =>
          simp only [Option.some.injEq, forall_eq']
          split
          · next hs =>
            rw [ih]
            exact ⟨fun h => ⟨hs, h⟩, And.right⟩
          · next hs => exact ⟨nofun, fun h => absurd h.1 hs⟩

/-! ## The document -/

/-- The declared schema agrees with a store on the shapes of exposed keys. -/
def AgreesOn (s : Store) (declared : List SchemaEntry) : Prop :=
  ∀ entry ∈ declared, ∀ e, s.exposed? entry.key = some e → entry.shape = .ofKind e.kind

theorem Sound.compare_eq_ok_iff (h : s.Sound) {declared : List SchemaEntry} :
    s.schema.compare declared = .ok () ↔ s.AgreesOn declared := by
  simp only [Store.compare_eq_ok_iff, h.schema_find?, AgreesOn, Option.map_eq_some_iff,
    forall_exists_index, and_imp, forall_apply_eq_imp_iff₂]
  rfl

theorem not_refuses_iff {doc : Document} :
    ¬ s.Refuses doc ↔ (∀ schema, doc.schema = some schema → s.AgreesOn schema.elements) ∧
      ∀ entry ∈ doc.state, s.Passes entry := by
  constructor
  · intro h
    constructor
    · intro schema hs entry he e hx
      apply Decidable.byContradiction
      intro hne
      exact h (.shape hs he hx hne)
    · intro entry he
      unfold Passes
      cases hx : s.exposed? entry.key with
      | none =>
          cases hp : s.policy with
          | ignore => rfl
          | reject => exact absurd (.unknown hp he hx) h
      | some e =>
          cases hv : Value.ofWire entry.key e.kind entry.value with
          | error error => exact absurd (.unreadable he hx hv) h
          | ok value =>
              cases ha : e.constraint.admits value with
              | false => exact absurd (.inadmissible he hx hv ha) h
              | true => exact ⟨value, hv, ha⟩
  · intro h hrefused
    obtain ⟨hshape, hpass⟩ := h
    cases hrefused with
    | shape hs he hx hne => exact hne (hshape _ hs _ he _ hx)
    | unreadable he hx hv =>
        have hp := hpass _ he
        simp [Passes, hx, hv] at hp
    | inadmissible he hx hv ha =>
        have hp := hpass _ he
        simp [Passes, hx, hv, ha] at hp
    | unknown hr he hx =>
        have hp := hpass _ he
        simp [Passes, hx, hr] at hp

/-- A document is planned unless it is refused, and then for what its entries
ask, one by one. -/
theorem Sound.plan_eq_ok_iff (h : s.Sound) {doc : Document} {plan : Plan} :
    s.plan doc = .ok plan ↔
      ¬ s.Refuses doc ∧ plan = ⟨s.updatesFor doc.state, s.passedOver doc.state⟩ := by
  rw [not_refuses_iff, and_assoc, ← planEntries_eq_ok_iff]
  unfold Store.plan
  cases hd : doc.schema with
  | none =>
      simp only [bind_eq_ok_iff]
      constructor
      · intro hp
        obtain ⟨_, _, hp⟩ := hp
        exact ⟨nofun, hp⟩
      · intro hp
        exact ⟨(), trivial, hp.2⟩
  | some declared =>
      simp only [bind_eq_ok_iff, Option.some.injEq, forall_eq', ← h.compare_eq_ok_iff]
      constructor
      · intro hp
        obtain ⟨_, hs, hp⟩ := hp
        exact ⟨hs, hp⟩
      · intro hp
        exact ⟨(), hp.1, hp.2⟩

theorem takes_of_not_refuses {doc : Document} (h : ¬ s.Refuses doc) :
    s.Takes (s.updatesFor doc.state) :=
  takes_updatesFor (not_refuses_iff.1 h).2

end Store

end SharedState
