import SharedState.Document.Basic
import SharedState.Proofs.Schema.Written

/-!
# Written documents are read back

The bytes of a document are read as the document again, with its values and its
layout in canonical order, exactly if its tree nests no deeper than the reader
goes: `Document.parse?_toBytes`. The tree of a document goes one level deeper
than its layout, two levels deeper than its entries, and one deeper than its
schema.
-/

namespace SharedState

open Json

namespace Entry

def canonical (entry : Entry) : Entry := ⟨entry.key, entry.value.canonical⟩

theorem depth_toNode (entry : Entry) : entry.toNode.depth = entry.value.depth + 1 := by
  simp [toNode, Node.record, Node.text, Node.depth, Node.membersDepth, Json.depth]

theorem fields?_toNode (entry : Entry) :
    entry.toNode.fields? ["key", "value"] =
      some [some (.text entry.key), some entry.value.toNode] := rfl

theorem ofNode?_toNode (entry : Entry) (d : Nat) :
    ofNode? d entry.toNode = if entry.toNode.depth ≤ d then some entry.canonical else none := by
  rw [depth_toNode]
  cases d with
  | zero =>
      rw [if_neg (by omega)]
      rfl
  | succ d =>
      simp only [ofNode?, fields?_toNode, Json.ofNode?_toNode, Nat.add_le_add_iff_right]
      by_cases hvalue : entry.value.depth ≤ d
      · rw [if_pos hvalue, if_pos hvalue]
        rfl
      · rw [if_neg hvalue, if_neg hvalue]
        rfl

theorem isValue_toNode (entry : Entry) : entry.toNode.IsValue := by
  apply Node.isValue_record
  simp [Node.isValue_text, Node.isValue_toNode]

end Entry

namespace Document

/-- The numbers of the document are numbers of 64 bits. -/
def Fits (doc : Document) : Prop :=
  doc.revision ≤ Text.maxWord ∧ ∀ schema ∈ doc.schema, schema.Fits

def canonical (doc : Document) : Document where
  revision := doc.revision
  schema := doc.schema.map .canonical
  state := doc.state.map .canonical
  layout := doc.layout.canonical

variable {doc : Document}

theorem fields?_toNode (doc : Document) :
    doc.toNode.fields? ["revision", "schema", "state", "layout"] =
      some [some (Shape.naturalNode doc.revision), doc.schema.map (·.toNode),
        some (.array (doc.state.map Entry.toNode)),
        if doc.layout.isNull then none else some doc.layout.toNode] := by
  obtain ⟨revision, schema, state, layout⟩ := doc
  rw [toNode]
  cases schema <;> cases layout <;> rfl

theorem depth_layout_le_iff (doc : Document) (d : Nat) :
    (∀ member ∈ (if doc.layout.isNull then [] else [("layout", doc.layout.toNode)]),
      member.2.depth ≤ d) ↔ doc.layout.depth ≤ d := by
  obtain ⟨revision, schema, state, layout⟩ := doc
  cases layout <;> simp [isNull, Json.depth, Json.toNode, Node.depth]

theorem depth_toNode_le_iff {d : Nat} :
    doc.toNode.depth ≤ d + 2 ↔ (∀ schema ∈ doc.schema, schema.toNode.depth ≤ d + 1) ∧
      (∀ entry ∈ doc.state, entry.toNode.depth ≤ d) ∧ doc.layout.depth ≤ d + 1 := by
  have hrevision : (Shape.naturalNode doc.revision).depth ≤ d + 1 := Nat.zero_le _
  rw [toNode, Node.depth_record_le_iff]
  simp only [List.forall_mem_append, List.forall_mem_singleton, depth_layout_le_iff, hrevision,
    Node.depth_array_le_iff, List.forall_mem_map, Option.mem_toList, true_and, and_assoc]
  rfl

theorem two_le_depth (doc : Document) : 2 ≤ doc.toNode.depth := by
  by_contra hlt
  have hstate := Node.depth_record_le_iff.1 (Nat.le_of_lt_succ (Nat.lt_of_not_le hlt))
    ("state", .array (doc.state.map Entry.toNode)) (by simp)
  exact absurd hstate (by simp [Node.depth])

theorem ofNode?_toNode (h : doc.Fits) (d : Nat) :
    ofNode? d doc.toNode = if doc.toNode.depth ≤ d then some doc.canonical else none := by
  have htwo := doc.two_le_depth
  rcases d with _ | _ | d
  · rw [if_neg (by omega)]
    rfl
  · rw [if_neg (by omega)]
    rfl
  · have hrevision : withDefault? 0 (Node.natural? Text.maxWord)
        (some (Shape.naturalNode doc.revision)) = some doc.revision := by
      rw [withDefault?, Shape.natural?_naturalNode, if_pos h.1]
    have hschema : Node.optional? (Schema.ofNode? (d + 1)) (doc.schema.map (·.toNode)) =
        if ∀ schema ∈ doc.schema, schema.toNode.depth ≤ d + 1 then
          some (doc.schema.map .canonical) else none :=
      Node.optional?_map (fun _ => nofun) fun schema hm =>
        schema.ofNode?_toNode (h.2 schema hm) (d + 1)
    have hstate : withDefault? [] (entries? d) (some (.array (doc.state.map Entry.toNode))) =
        if ∀ entry ∈ doc.state, entry.toNode.depth ≤ d then
          some (doc.state.map .canonical) else none :=
      mapM_read fun entry _ => entry.ofNode?_toNode d
    have hlayout : withDefault? .null (Json.ofNode? (d + 1))
        (if doc.layout.isNull then none else some doc.layout.toNode) =
        if doc.layout.depth ≤ d + 1 then some doc.layout.canonical else none := by
      rw [← Json.ofNode?_toNode]
      cases doc.layout <;> rfl
    simp only [ofNode?, fields?_toNode, hrevision, hschema, hstate, hlayout, depth_toNode_le_iff]
    by_cases hall : (∀ schema ∈ doc.schema, schema.toNode.depth ≤ d + 1) ∧
        (∀ entry ∈ doc.state, entry.toNode.depth ≤ d) ∧ doc.layout.depth ≤ d + 1
    · rw [if_pos hall, if_pos hall.1, if_pos hall.2.1, if_pos hall.2.2]
      rfl
    · rw [if_neg hall]
      by_cases hs : ∀ schema ∈ doc.schema, schema.toNode.depth ≤ d + 1
      · by_cases he : ∀ entry ∈ doc.state, entry.toNode.depth ≤ d
        · rw [if_pos hs, if_pos he, if_neg fun hl => hall ⟨hs, he, hl⟩]
        · rw [if_pos hs, if_neg he]
      · rw [if_neg hs]

theorem isValue_toNode (h : doc.Fits) : doc.toNode.IsValue := by
  obtain ⟨revision, schema, state, layout⟩ := doc
  have hstate : (Node.array (state.map Entry.toNode)).IsValue := by
    apply Node.isValue_array
    rw [List.forall_mem_map]
    exact fun entry _ => entry.isValue_toNode
  have hlayout : ∀ member ∈ (if layout.isNull then [] else [("layout", layout.toNode)]),
      member.2.IsValue := by
    cases layout <;> simp [isNull, Node.isValue_toNode]
  apply Node.isValue_record
  simp only [List.forall_mem_append, List.forall_mem_singleton, List.forall_mem_map,
    Option.mem_toList]
  exact ⟨⟨⟨Shape.isValue_naturalNode h.1, fun s hs => s.isValue_toNode (h.2 s hs)⟩, hstate⟩,
    hlayout⟩

/-- A document is read back from its bytes exactly if it is not too deep. -/
theorem parse?_toBytes (h : doc.Fits) :
    parse? doc.toBytes = if doc.toNode.depth ≤ maxDepth then some doc.canonical else none := by
  rw [parse?, toBytes, render, Node.parse?_write (isValue_toNode h).printable]
  exact ofNode?_toNode h maxDepth

end Document

end SharedState
