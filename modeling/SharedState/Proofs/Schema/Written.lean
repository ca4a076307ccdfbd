import SharedState.Proofs.Json.Record
import SharedState.Schema.Basic

/-!
# Written schemas are read back

For each part of a schema, how far down its reader has to be able to go: exactly
as far as the tree of the part nests. A shape is looked through as a value before
it is read as a shape, so there it is the tree as a whole that counts, although
the reading of the shape itself would get by with less.

Lengths of lists are the only numbers in a schema; they are read as numbers of
64 bits, which is what `Shape.Fits` asks of them. Values inside restrictions come
back as `Json.canonical` says.
-/

namespace SharedState

open Json

/-! ## Shapes -/

namespace Shape

mutual

/-- The lengths of all lists in the shape are numbers of 64 bits. -/
def Fits : Shape → Prop
  | .list item length => item.Fits ∧ length ≤ Text.maxWord
  | .record _ fields => FieldsFit fields
  | _ => True

def FieldsFit : List (String × Shape) → Prop
  | [] => True
  | (_, shape) :: rest => shape.Fits ∧ FieldsFit rest

end

theorem natural?_naturalNode (limit n : Nat) :
    (naturalNode n).natural? limit = if n ≤ limit then some n else none := by
  rw [naturalNode, Node.natural?, Text.ofDigits_toDigits]

theorem isValue_naturalNode {n : Nat} (h : n ≤ Text.maxWord) : (naturalNode n).IsValue := by
  have hfits : -(1 <<< 63 : Nat) ≤ (n : Int) ∧ (n : Int) < (1 <<< 64 : Nat) := by
    have hlimit : Text.maxWord = 1 <<< 64 - 1 := rfl
    omega
  refine ⟨.number (.integer n hfits), ?_⟩
  have hsign : decide ((n : Int) < 0) = false :=
    decide_eq_false (Int.not_lt.2 (Int.natCast_nonneg n))
  show Node.number (decide ((n : Int) < 0)) _ = _
  rw [hsign]
  rfl

mutual

theorem isValue_toNode {shape : Shape} (h : shape.Fits) : shape.toNode.IsValue := by
  cases shape with
  | integer | float | boolean | string | bytes =>
      apply Node.isValue_record
      simp [Node.isValue_text]
  | list item length =>
      apply Node.isValue_record
      simp [Node.isValue_text, isValue_toNode h.1, isValue_naturalNode h.2]
  | record name fields =>
      apply Node.isValue_record
      simp [Node.isValue_text, Node.isValue_array (isValue_of_mem_fieldNodes h)]

theorem isValue_of_mem_fieldNodes {fields : List (String × Shape)} (h : FieldsFit fields) :
    ∀ node ∈ fieldNodes fields, node.IsValue := by
  match fields, h with
  | [], _ => exact fun node hm => absurd hm List.not_mem_nil
  | (name, shape) :: rest, h =>
      rw [fieldNodes, List.forall_mem_cons]
      refine ⟨?_, isValue_of_mem_fieldNodes h.2⟩
      apply Node.isValue_record
      simp [Node.isValue_text, isValue_toNode h.1]

end

/-! What is left of reading a shape once its tag and its fields are found. -/

theorem ofContent?_list (d : Nat) (nested : Bool) (item : Shape) (length : Nat) :
    ofContent? (d + 1) nested (list item length).toNode =
      match ofContent? d true item.toNode, (naturalNode length).natural? Text.maxWord with
      | some item, some length => some (.list item length)
      | _, _ => none := rfl

theorem ofContent?_record (d : Nat) (nested : Bool) (name : String)
    (fields : List (String × Shape)) :
    ofContent? (d + 1) nested (record name fields).toNode =
      ((fieldNodes fields).mapM (readField? (ofContent? d true))).map (Shape.record name) := by
  have htagged : ofContent? (d + 1) nested (record name fields).toNode =
      readTagged? (ofContent? d true) .record
        (Node.record [("name", .text name), ("fields", .array (fieldNodes fields))]) := rfl
  have hfields : (Node.record
      [("name", .text name), ("fields", .array (fieldNodes fields))]).fields? ["name", "fields"] =
      some [some (.text name), some (.array (fieldNodes fields))] := rfl
  simp only [htagged, readTagged?, hfields, Node.items?, Option.bind_some]
  cases (fieldNodes fields).mapM (readField? (ofContent? d true)) <;> rfl

theorem readField?_record (read : Node → Option Shape) (name : String) (shape : Shape) :
    readField? read (Node.record [("name", .text name), ("shape", shape.toNode)]) =
      (read shape.toNode).map (name, ·) := by
  have hfields : (Node.record [("name", .text name), ("shape", shape.toNode)]).fields?
      ["name", "shape"] = some [some (.text name), some shape.toNode] := rfl
  simp only [readField?, hfields]
  cases read shape.toNode <;> rfl

mutual

/-- A shape is read back by a reader that can go down far enough. -/
theorem ofContent?_toNode {shape : Shape} (h : shape.Fits) {d : Nat}
    (hd : shape.toNode.depth ≤ d) (nested : Bool) :
    ofContent? d nested shape.toNode = some shape := by
  cases d with
  | zero => cases shape <;> exact absurd hd Node.not_depth_record_le_zero
  | succ d =>
      cases shape with
      | integer | float | boolean | string | bytes => rfl
      | list item length =>
          have hitem : item.toNode.depth ≤ d :=
            Node.depth_record_le_iff.1 hd ("item", item.toNode) (by simp)
          rw [ofContent?_list, ofContent?_toNode h.1 hitem, natural?_naturalNode, if_pos h.2]
      | record name fields =>
          have hfields : (Node.array (fieldNodes fields)).depth ≤ d :=
            Node.depth_record_le_iff.1 hd ("fields", .array (fieldNodes fields)) (by simp)
          -- the reader of shapes counts shapes only, so the levels between them are to spare
          have hnodes := Node.depth_array_le_iff.1 (Nat.le_succ_of_le hfields)
          rw [ofContent?_record, mapM_fieldNodes h hnodes]
          rfl

theorem mapM_fieldNodes {fields : List (String × Shape)} (h : FieldsFit fields) {d : Nat}
    (hd : ∀ node ∈ fieldNodes fields, node.depth ≤ d) :
    (fieldNodes fields).mapM (readField? (ofContent? d true)) = some fields := by
  match fields, h with
  | [], _ => rfl
  | (name, shape) :: rest, h =>
      rw [fieldNodes, List.forall_mem_cons] at hd
      have hshape : shape.toNode.depth ≤ d :=
        Node.depth_record_le_iff.1 (Nat.le_succ_of_le hd.1) ("shape", shape.toNode) (by simp)
      rw [fieldNodes, List.mapM_cons, readField?_record, ofContent?_toNode h.1 hshape,
        mapM_fieldNodes h.2 hd.2]
      rfl

end

theorem ofNode?_toNode {shape : Shape} (h : shape.Fits) (d : Nat) :
    ofNode? d shape.toNode = if shape.toNode.depth ≤ d then some shape else none := by
  have hread := (isValue_toNode h).isSome_ofNode?_iff (d := d)
  rw [ofNode?]
  by_cases hd : shape.toNode.depth ≤ d
  · rw [if_pos hd, if_pos (hread.2 hd), ofContent?_toNode h hd]
  · rw [if_neg hd, if_neg fun hsome => hd (hread.1 hsome)]

theorem fits_ofKind (kind : Kind) : (ofKind kind).Fits := by
  cases kind <;> simp [ofKind, matrix, Fits, FieldsFit, matrixSize, Text.maxWord]

end Shape

/-! ## Restrictions -/

namespace Restriction

def canonical : Restriction → Restriction
  | range min max => .range min.canonical max.canonical
  | enumeration values => .enumeration (canonicalItems values)

theorem ofNode?_range (low high : Json) (d : Nat) :
    ofNode? (d + 2) (range low high).toNode =
      match Json.ofNode? d low.toNode, Json.ofNode? d high.toNode with
      | some low, some high => some (.range low high)
      | _, _ => none := rfl

theorem ofNode?_enumeration (values : List Json) (d : Nat) :
    ofNode? (d + 3) (enumeration values).toNode =
      (ofNodes? d (toNodes values)).map .enumeration := rfl

theorem depth_range (low high : Json) :
    (range low high).toNode.depth = max low.depth high.depth + 2 := by
  simp [toNode, Node.record, Node.depth, Node.membersDepth, Json.depth]

theorem depth_enumeration (values : List Json) :
    (enumeration values).toNode.depth = Node.itemsDepth (toNodes values) + 3 := by
  simp [toNode, Node.record, Node.depth, Node.membersDepth]

theorem ofNode?_toNode (r : Restriction) (d : Nat) :
    ofNode? d r.toNode = if r.toNode.depth ≤ d then some r.canonical else none := by
  cases r with
  | range low high =>
      rw [depth_range]
      rcases d with _ | _ | d
      · rw [if_neg (by omega)]
        rfl
      · rw [if_neg (by omega)]
        rfl
      · simp only [ofNode?_range, Json.ofNode?_toNode, Nat.add_le_add_iff_right, Nat.max_le]
        by_cases hlow : low.depth ≤ d
        · by_cases hhigh : high.depth ≤ d
          · rw [if_pos hlow, if_pos hhigh, if_pos ⟨hlow, hhigh⟩]
            rfl
          · rw [if_pos hlow, if_neg hhigh, if_neg fun h => hhigh h.2]
        · have hnot : ¬ (low.depth ≤ d ∧ high.depth ≤ d) := fun h => hlow h.1
          rw [if_neg hlow, if_neg hnot]
  | enumeration values =>
      rw [depth_enumeration]
      rcases d with _ | _ | _ | d
      · rw [if_neg (by omega)]
        rfl
      · rw [if_neg (by omega)]
        rfl
      · rw [if_neg (by omega)]
        rfl
      · simp only [ofNode?_enumeration, ofNodes?_toNodes, Nat.add_le_add_iff_right]
        split <;> rfl

theorem isValue_toNode (r : Restriction) : r.toNode.IsValue := by
  cases r with
  | range min max =>
      apply Node.isValue_record
      simp only [List.forall_mem_singleton]
      apply Node.isValue_record
      simp [Node.isValue_toNode]
  | enumeration values =>
      apply Node.isValue_record
      simp only [List.forall_mem_singleton]
      apply Node.isValue_record
      simp only [List.forall_mem_singleton]
      exact Node.isValue_toNode (.array values)

end Restriction

/-! ## Schemas -/

namespace SchemaEntry

def canonical (entry : SchemaEntry) : SchemaEntry :=
  { entry with restriction := entry.restriction.map .canonical }

variable {entry : SchemaEntry}

theorem fields?_toNode (entry : SchemaEntry) :
    entry.toNode.fields? ["key", "shape", "restriction", "annotation"] =
      some [some (.text entry.key), some entry.shape.toNode, entry.restriction.map (·.toNode),
        entry.label.map .text] := by
  obtain ⟨key, shape, restriction, label⟩ := entry
  cases restriction <;> cases label <;> rfl

theorem depth_toNode_le_iff {d : Nat} :
    entry.toNode.depth ≤ d + 1 ↔
      entry.shape.toNode.depth ≤ d ∧ ∀ r ∈ entry.restriction, r.toNode.depth ≤ d := by
  obtain ⟨key, shape, restriction, label⟩ := entry
  rw [toNode, Node.depth_record_le_iff]
  cases restriction <;> cases label <;> simp [Node.text, Node.depth]

theorem ofNode?_toNode (h : entry.shape.Fits) (d : Nat) :
    ofNode? d entry.toNode = if entry.toNode.depth ≤ d then some entry.canonical else none := by
  cases d with
  | zero =>
      have hdepth : ¬ entry.toNode.depth ≤ 0 := Node.not_depth_record_le_zero
      rw [if_neg hdepth]
      rfl
  | succ d =>
      have hrestriction : Node.optional? (Restriction.ofNode? d)
          (entry.restriction.map (·.toNode)) =
          if ∀ r ∈ entry.restriction, r.toNode.depth ≤ d then
            some (entry.restriction.map .canonical) else none :=
        Node.optional?_map (fun r => by cases r <;> exact nofun) fun r _ => r.ofNode?_toNode d
      have hlabel : Node.optional? Node.string? (entry.label.map .text) = some entry.label := by
        cases entry.label <;> rfl
      simp only [ofNode?, fields?_toNode, Shape.ofNode?_toNode h, hrestriction, hlabel,
        depth_toNode_le_iff]
      by_cases hshape : entry.shape.toNode.depth ≤ d
      · by_cases hr : ∀ r ∈ entry.restriction, r.toNode.depth ≤ d
        · rw [if_pos hshape, if_pos hr, if_pos ⟨hshape, hr⟩]
          rfl
        · rw [if_pos hshape, if_neg hr, if_neg fun h => hr h.2]
          rfl
      · have hnot : ¬ (entry.shape.toNode.depth ≤ d ∧ ∀ r ∈ entry.restriction,
            r.toNode.depth ≤ d) := fun h => hshape h.1
        rw [if_neg hshape, if_neg hnot]
        rfl

theorem isValue_toNode (h : entry.shape.Fits) : entry.toNode.IsValue := by
  obtain ⟨key, shape, restriction, label⟩ := entry
  apply Node.isValue_record
  cases restriction <;> cases label <;>
    simp [Node.isValue_text, Shape.isValue_toNode h, Restriction.isValue_toNode]

end SchemaEntry

namespace Schema

/-- The shapes of all entries can be read. -/
def Fits (schema : Schema) : Prop := ∀ entry ∈ schema.elements, entry.shape.Fits

def canonical (schema : Schema) : Schema := ⟨schema.elements.map .canonical⟩

variable {schema : Schema}

theorem depth_toNode (schema : Schema) :
    schema.toNode.depth = Node.itemsDepth (schema.elements.map SchemaEntry.toNode) + 2 := by
  simp [toNode, Node.record, Node.depth, Node.membersDepth]

theorem ofNode?_toNode (h : schema.Fits) (d : Nat) :
    ofNode? d schema.toNode = if schema.toNode.depth ≤ d then some schema.canonical else none := by
  rw [depth_toNode]
  rcases d with _ | _ | d
  · rw [if_neg (by omega)]
    rfl
  · rw [if_neg (by omega)]
    rfl
  · have hread : ofNode? (d + 2) schema.toNode =
        ((schema.elements.map SchemaEntry.toNode).mapM (SchemaEntry.ofNode? d)).map .mk := rfl
    have hentries : (schema.elements.map SchemaEntry.toNode).mapM (SchemaEntry.ofNode? d) =
        if ∀ entry ∈ schema.elements, entry.toNode.depth ≤ d then
          some (schema.elements.map .canonical) else none :=
      mapM_read fun entry hm => SchemaEntry.ofNode?_toNode (h entry hm) d
    simp only [hread, hentries, Nat.add_le_add_iff_right, Node.itemsDepth_le_iff,
      List.forall_mem_map]
    split <;> rfl

theorem isValue_toNode (h : schema.Fits) : schema.toNode.IsValue := by
  apply Node.isValue_record
  rw [List.forall_mem_singleton]
  apply Node.isValue_array
  rw [List.forall_mem_map]
  exact fun entry hm => SchemaEntry.isValue_toNode (h entry hm)

end Schema

end SharedState
