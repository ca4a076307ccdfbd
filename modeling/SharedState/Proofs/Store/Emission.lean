import SharedState.Proofs.Document.Written
import SharedState.Proofs.Store.Restore

/-!
# What a store emits

The documents of a store hold nothing that could not be read back, with one
exception. Values, restrictions and shapes nest a few levels at most, their
objects are in order, and the numbers are numbers of 64 bits; but the layout is
whatever it was set to, and it stands one level deeper in the document than it
did when it was set. So how deep the layout nests decides alone whether a
document can be read, and a layout that is itself as deep as a reader can go
makes every document of the store unreadable.
-/

namespace SharedState

open Json

/-! ## Values and schemas -/

namespace Value

theorem floatWire_depth (x : Double) : (floatWire x).depth = 0 := by
  unfold floatWire
  split <;> rfl

theorem floatWire_canonical (x : Double) : (floatWire x).canonical = floatWire x := by
  unfold floatWire
  split <;> rfl

theorem matrixWire_depth_le (m : Matrix) : (matrixWire m).depth ≤ 1 := by
  rw [matrixWire, Json.depth_array_le_iff, List.forall_mem_map]
  exact fun x _ => (floatWire_depth x.widen).le

theorem matrixWire_canonical (m : Matrix) : (matrixWire m).canonical = matrixWire m := by
  apply canonical_array
  rw [List.forall_mem_map]
  exact fun x _ => floatWire_canonical x.widen

/-- A value nests no deeper than a viewer, which holds matrices. -/
theorem toWire_depth_le (v : Value) : v.toWire.depth ≤ 2 := by
  cases v with
  | integer | boolean | string | bytes => exact Nat.zero_le 2
  | float x => exact (floatWire_depth x).le.trans (Nat.zero_le 2)
  | matrix m => exact (matrixWire_depth_le m).trans (by decide)
  | viewer v =>
      apply depth_ofMembers_le
      have hnumber : ∀ i, (Json.number (.ofInt64 i)).depth ≤ 1 := fun _ => Nat.zero_le 1
      have htext : (Json.string v.sceneView).depth ≤ 1 := Nat.zero_le 1
      simp [hnumber, htext, floatWire_depth, matrixWire_depth_le]

theorem toWire_canonical (v : Value) : v.toWire.canonical = v.toWire := by
  cases v with
  | integer | boolean | string | bytes => rfl
  | float x => exact floatWire_canonical x
  | matrix m => exact matrixWire_canonical m
  | viewer v =>
      apply canonical_ofMembers
      simp [floatWire_canonical, matrixWire_canonical, Json.canonical]

end Value

namespace Restriction

variable {c : Constraint} {r : Restriction}

theorem depth_of_ofConstraint? (h : r ∈ ofConstraint? c) : r.toNode.depth ≤ 5 := by
  cases c with
  | unconstrained => cases h
  | range min max =>
      cases h
      have hmin := min.toWire_depth_le
      have hmax := max.toWire_depth_le
      rw [depth_range]
      omega
  | allowed values =>
      cases h
      have hvalues : Node.itemsDepth (toNodes (values.map Value.toWire)) ≤ 2 := by
        rw [toNodes_eq_map, Node.itemsDepth_le_iff, List.map_map, List.forall_mem_map]
        exact fun v _ => v.toWire_depth_le
      rw [depth_enumeration]
      omega

theorem canonical_of_ofConstraint? (h : r ∈ ofConstraint? c) : r.canonical = r := by
  cases c with
  | unconstrained => cases h
  | range min max =>
      cases h
      rw [canonical, Value.toWire_canonical, Value.toWire_canonical]
  | allowed values =>
      cases h
      rw [canonical, canonicalItems_eq_self]
      rw [List.forall_mem_map]
      exact fun v _ => v.toWire_canonical

end Restriction

namespace SchemaEntry

theorem depth_describe_le (e : Element) : (describe e).toNode.depth ≤ 6 := by
  rw [depth_toNode_le_iff]
  constructor
  · have hall : ∀ kind, (Shape.ofKind kind).toNode.depth ≤ 5 := by
      intro kind
      cases kind <;> decide
    exact hall e.kind
  · exact fun r hr => Restriction.depth_of_ofConstraint? hr

theorem canonical_describe (e : Element) : (describe e).canonical = describe e := by
  have hsame : (Restriction.ofConstraint? e.constraint).map .canonical =
      Restriction.ofConstraint? e.constraint := by
    cases hr : Restriction.ofConstraint? e.constraint with
    | none => rfl
    | some r => rw [Option.map_some, Restriction.canonical_of_ofConstraint? hr]
  rw [canonical, describe, hsame]

end SchemaEntry

namespace Schema

variable (elements : List Element)

theorem generate_fits : (generate elements).Fits := by
  rw [Fits, generate, List.forall_mem_map]
  exact fun e _ => Shape.fits_ofKind e.kind

theorem depth_generate_le : (generate elements).toNode.depth ≤ 8 := by
  have hentries : Node.itemsDepth ((generate elements).elements.map SchemaEntry.toNode) ≤ 6 := by
    rw [generate, Node.itemsDepth_le_iff, List.map_map, List.forall_mem_map]
    exact fun e _ => SchemaEntry.depth_describe_le e
  rw [depth_toNode]
  omega

theorem canonical_generate : (generate elements).canonical = generate elements := by
  rw [canonical, generate, List.map_map]
  congr 1
  exact List.map_congr_left fun e _ => SchemaEntry.canonical_describe e

end Schema

/-! ## Documents -/

namespace Store

variable {s t : Store} {wanted : Element → Bool}

theorem Sound.documentOf_fits (h : s.Sound) (hword : s.revision ≤ Text.maxWord) :
    (s.documentOf wanted).Fits := by
  refine ⟨hword, fun schema hschema => ?_⟩
  cases hschema
  rw [h.schema_eq]
  exact Schema.generate_fits _

/-- Nothing but the layout can be out of order in a document of a store. -/
theorem Sound.canonical_documentOf (h : s.Sound) :
    (s.documentOf wanted).canonical = (s.setLayout s.layout.canonical).documentOf wanted := by
  have hstate : (s.documentOf wanted).state.map Entry.canonical = (s.documentOf wanted).state := by
    simp only [documentOf, List.map_map]
    refine List.map_congr_left fun e _ => ?_
    show (⟨e.key, e.value.toWire.canonical⟩ : Entry) = _
    rw [Value.toWire_canonical]
  have hschema : s.schema.canonical = s.schema := by
    rw [h.schema_eq, Schema.canonical_generate]
  rw [Document.canonical, hstate]
  show (⟨s.revision, some s.schema.canonical, _, _⟩ : Document) = _
  rw [hschema]
  rfl

/-- Nothing but the layout can make a document of a store too deep. -/
theorem Sound.depth_documentOf_le_iff (h : s.Sound) {d : Nat} (hd : 8 ≤ d) :
    (s.documentOf wanted).toNode.depth ≤ d + 1 ↔ s.layout.depth ≤ d := by
  obtain ⟨d, rfl⟩ : ∃ k, d = k + 1 := ⟨d - 1, by omega⟩
  have hschema : ∀ schema ∈ (s.documentOf wanted).schema, schema.toNode.depth ≤ d + 1 := by
    intro schema hmem
    cases hmem
    rw [h.schema_eq]
    exact (Schema.depth_generate_le _).trans hd
  have hstate : ∀ entry ∈ (s.documentOf wanted).state, entry.toNode.depth ≤ d := by
    intro entry hmem
    obtain ⟨e, -, -, hvalue⟩ := h.mem_state_iff.1 hmem
    have hdepth := e.value.toWire_depth_le
    rw [Entry.depth_toNode, hvalue]
    omega
  rw [Document.depth_toNode_le_iff]
  exact ⟨fun hall => hall.2.2, fun hlayout => ⟨hschema, hstate, hlayout⟩⟩

/-- What a store emits is read back, unless the layout takes up all the levels
that the reader goes down. -/
theorem Sound.parse?_toBytes (h : s.Sound) (hword : s.revision ≤ Text.maxWord) :
    Document.parse? (s.documentOf wanted).toBytes =
      if s.layout.depth < maxDepth then
        some ((s.setLayout s.layout.canonical).documentOf wanted)
      else none := by
  have hdepth : (s.documentOf wanted).toNode.depth ≤ maxDepth ↔ s.layout.depth < maxDepth :=
    (h.depth_documentOf_le_iff (by decide)).trans Nat.lt_succ_iff.symm
  simp only [Document.parse?_toBytes (h.documentOf_fits hword), h.canonical_documentOf, hdepth]

/-! ## Taking the document back -/

/-- The updates for entries that give a value each. -/
theorem map_updatesFor {entries : List Entry}
    (h : ∀ entry ∈ entries, ∃ value, t.valueFor? entry = some value) :
    (t.updatesFor entries).map (·.1) = entries.map (·.key) := by
  induction entries with
  | nil => rfl
  | cons entry rest ih =>
      obtain ⟨value, hv⟩ := h entry List.mem_cons_self
      have hrest := ih fun other hm => h other (List.mem_cons_of_mem _ hm)
      rw [updatesFor, List.filterMap_cons, hv]
      exact congrArg (entry.key :: ·) hrest

/-- All entries of a document are updates of a store that holds the same
elements. -/
theorem Sound.reportFor_documentOf (h : s.Sound) (he : t.elements = s.elements) :
    t.reportFor (s.documentOf wanted) =
      ⟨(s.documentOf wanted).keys, [], t.revision + (s.documentOf wanted).keys.length⟩ := by
  have hvalue : ∀ entry ∈ (s.documentOf wanted).state, ∃ e,
      t.exposed? entry.key = some e ∧ t.valueFor? entry = some e.value := by
    intro entry hm
    obtain ⟨e, hx, -, -⟩ := h.mem_state_iff.1 hm
    have hx' : t.exposed? entry.key = some e := (exposed?_congr he _).trans hx
    obtain ⟨-, -, hv⟩ := (h.compatible_of_elements he).valueFor? h hm hx hx'
    exact ⟨e, hx', hv⟩
  have hkeys : (t.updatesFor (s.documentOf wanted).state).map (·.1) =
      (s.documentOf wanted).keys := by
    apply map_updatesFor
    intro entry hm
    obtain ⟨e, -, hv⟩ := hvalue entry hm
    exact ⟨e.value, hv⟩
  have hignored : t.passedOver (s.documentOf wanted).state = [] := by
    rw [passedOver, List.map_eq_nil_iff, List.filter_eq_nil_iff]
    intro entry hm
    obtain ⟨e, hx, -⟩ := hvalue entry hm
    rw [hx]
    exact Bool.false_ne_true
  have hlength : (t.updatesFor (s.documentOf wanted).state).length =
      (s.documentOf wanted).keys.length := by
    rw [← hkeys, List.length_map]
  rw [reportFor, hkeys, hignored, hlength]

end Store

end SharedState
