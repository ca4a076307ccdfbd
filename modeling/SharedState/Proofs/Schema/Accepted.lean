import SharedState.Proofs.Json.Accepted
import SharedState.Proofs.Schema.Written

/-!
# What the readers of schemas accept

A shape may be given in several ways: as an object with its tag anywhere, or as
an array with its tag first, and each shape inside it again in either way. What
was read is written in one of them only, and that never nests deeper than what
it was read from. The induction is on the number of levels that the reader may
go down, as the reading is; a list or a record takes one level for itself, and
so does what it is written as.

The other parts of a schema count levels themselves. For them it is enough that
what was read with a number of levels is written with no more.
-/

namespace SharedState

open Json

/-! ## Shapes -/

namespace Shape

variable {fields : List (String × Shape)}

theorem fieldsFit_iff : FieldsFit fields ↔ ∀ field ∈ fields, field.2.Fits := by
  induction fields with
  | nil => simp [FieldsFit]
  | cons field rest ih => rw [FieldsFit, ih, List.forall_mem_cons]

theorem fieldNodes_eq_map (fields : List (String × Shape)) :
    fieldNodes fields = fields.map fun field =>
      .record [("name", .text field.1), ("shape", field.2.toNode)] := by
  induction fields with
  | nil => rfl
  | cons field rest ih => rw [fieldNodes, ih, List.map_cons]

/-- A tag is one of the seven, and a scalar among them is written at one level. -/
theorem tag?_scalar {nested : Bool} {node : Node} {shape : Shape}
    (h : tag? nested node = some (.scalar shape)) : shape.Fits ∧ shape.toNode.depth = 1 := by
  have hmem : Tag.scalar shape ∈ tags.map (·.2) := by
    unfold tag? at h
    split at h
    · obtain ⟨before, after, heq, -⟩ := List.lookup_eq_some_iff.1 h
      rw [heq]
      simp
    · split at h
      · obtain ⟨entry, hentry, heq⟩ := Option.map_eq_some_iff.1 h
        obtain ⟨n, -, hn⟩ := Option.bind_eq_some_iff.1 hentry
        exact heq ▸ List.mem_map_of_mem (List.mem_of_getElem? hn)
      · cases h
  simp only [tags, List.map_cons, List.map_nil, List.mem_cons, Tag.scalar.injEq, reduceCtorEq,
    List.not_mem_nil, or_false] at hmem
  rcases hmem with rfl | rfl | rfl | rfl | rfl <;> exact ⟨trivial, rfl⟩

/-- What remains without the tag is no deeper. -/
theorem depth_of_untag? {node tag rest : Node} (h : untag? node = some (tag, rest)) :
    rest.depth ≤ node.depth := by
  unfold untag? at h
  split at h
  · next members =>
    rw [List.partition_eq_filter_filter] at h
    split at h
    · next key given others heq =>
      cases h
      obtain ⟨-, rfl⟩ := Prod.mk.inj heq
      refine Nat.succ_le_succ (Node.membersDepth_le_iff.2 fun member hmember => ?_)
      exact Node.membersDepth_le_iff.1 (Nat.le_refl _) member (List.mem_filter.1 hmember).1
    · cases h
  · cases h
    exact Nat.succ_le_succ (Nat.le_max_right ..)
  · cases h

section reading

variable {read : Node → Option Shape}
  (hread : ∀ {node shape}, read node = some shape →
    shape.Fits ∧ shape.toNode.depth ≤ node.depth)
include hread

theorem readField?_accepted {node : Node} {field : String × Shape}
    (h : readField? read node = some field) :
    field.2.Fits ∧
      (Node.record [("name", .text field.1), ("shape", field.2.toNode)]).depth ≤ node.depth := by
  unfold readField? at h
  split at h
  · next name shape hfields =>
    split at h
    · next n s hname hshape =>
      cases h
      obtain ⟨hfits, hdepth⟩ := hread hshape
      have hin : shape.depth < node.depth := Node.depth_lt_of_fields? hfields (by simp)
      refine ⟨hfits, Node.depth_record_le ?_ (Nat.zero_lt_of_lt hin)⟩
      simp only [List.forall_mem_cons, List.not_mem_nil, false_imp_iff, implies_true, and_true]
      exact ⟨Nat.zero_lt_of_lt hin, Nat.lt_of_le_of_lt hdepth hin⟩
    · cases h
  · cases h

theorem readFields?_accepted {given : Node} {fields : List (String × Shape)}
    (h : (given.items?.bind fun items => items.mapM (readField? read)) = some fields) :
    FieldsFit fields ∧ (Node.array (fieldNodes fields)).depth ≤ given.depth := by
  obtain ⟨items, hitems, hfields⟩ := Option.bind_eq_some_iff.1 h
  obtain rfl := Node.eq_array_of_items? hitems
  have hall : ∀ field ∈ fields, field.2.Fits ∧
      (Node.record [("name", .text field.1), ("shape", field.2.toNode)]).depth ≤
        Node.itemsDepth items := by
    intro field hfield
    obtain ⟨item, hitem, heq⟩ := exists_of_mem_mapM hfields field hfield
    obtain ⟨hfits, hdepth⟩ := readField?_accepted hread heq
    exact ⟨hfits, Nat.le_trans hdepth (Node.itemsDepth_le_iff.1 (Nat.le_refl _) item hitem)⟩
  refine ⟨fieldsFit_iff.2 fun field hfield => (hall field hfield).1, Nat.succ_le_succ ?_⟩
  rw [Node.itemsDepth_le_iff, fieldNodes_eq_map, List.forall_mem_map]
  exact fun field hfield => (hall field hfield).2

/-- What a tagged shape is read as is written no deeper than what the tag was on. -/
theorem readTagged?_accepted {tag : Tag} {rest : Node} {shape : Shape}
    (hscalar : ∀ s, tag = .scalar s → s.Fits ∧ s.toNode.depth = 1)
    (h : readTagged? read tag rest = some shape) :
    shape.Fits ∧ shape.toNode.depth ≤ rest.depth := by
  cases tag with
  | scalar s =>
      obtain ⟨hfits, hone⟩ := hscalar s rfl
      rw [readTagged?] at h
      split at h
      · next hplain =>
        cases h
        refine ⟨hfits, ?_⟩
        rw [hone]
        -- without items, the rest is still an array or an object
        unfold isPlain at hplain
        split at hplain
        · exact Nat.succ_le_succ (Nat.zero_le _)
        · exact Nat.le_refl _
        · cases hplain
      · cases h
  | list =>
      rw [readTagged?] at h
      split at h
      · next item length hparts =>
        split at h
        · next s n hitem hlength =>
          cases h
          obtain ⟨hfits, hdepth⟩ := hread hitem
          have hin : item.depth < rest.depth := Node.depth_lt_of_fields? hparts (by simp)
          have hpos := Nat.zero_lt_of_lt hin
          refine ⟨⟨hfits, Node.natural?_le hlength⟩, Node.depth_record_le ?_ hpos⟩
          simp only [List.forall_mem_cons, List.not_mem_nil, false_imp_iff, implies_true, and_true]
          exact ⟨hpos, Nat.lt_of_le_of_lt hdepth hin, hpos⟩
        · cases h
      · cases h
  | record =>
      rw [readTagged?] at h
      split at h
      · next name given hparts =>
        split at h
        · next s fields hname hfields =>
          cases h
          obtain ⟨hfits, hdepth⟩ := readFields?_accepted hread hfields
          have hin : given.depth < rest.depth := Node.depth_lt_of_fields? hparts (by simp)
          have hpos := Nat.zero_lt_of_lt hin
          refine ⟨hfits, Node.depth_record_le ?_ hpos⟩
          simp only [List.forall_mem_cons, List.not_mem_nil, false_imp_iff, implies_true, and_true]
          exact ⟨hpos, hpos, Nat.lt_of_le_of_lt hdepth hin⟩
        · cases h
      · cases h

end reading

theorem ofContent?_accepted {d : Nat} {nested : Bool} {node : Node} {shape : Shape}
    (h : ofContent? d nested node = some shape) :
    shape.Fits ∧ shape.toNode.depth ≤ node.depth := by
  induction d generalizing nested node shape with
  | zero => cases h
  | succ d ih =>
      rw [ofContent?] at h
      split at h
      · cases h
      · next given rest huntag =>
        obtain ⟨tag, htag, hread⟩ := Option.bind_eq_some_iff.1 h
        have hscalar : ∀ s, tag = .scalar s → s.Fits ∧ s.toNode.depth = 1 :=
          fun s heq => tag?_scalar (heq ▸ htag)
        obtain ⟨hfits, hdepth⟩ := readTagged?_accepted ih hscalar hread
        exact ⟨hfits, Nat.le_trans hdepth (depth_of_untag? huntag)⟩

/-- A shape that was read can be written and read again. -/
theorem ofNode?_accepted {d : Nat} {node : Node} {shape : Shape}
    (h : ofNode? d node = some shape) : shape.Fits ∧ shape.toNode.depth ≤ d := by
  rw [ofNode?] at h
  split at h
  · next hvalue =>
    obtain ⟨value, hvalue⟩ := Option.isSome_iff_exists.1 hvalue
    obtain ⟨hfits, hdepth⟩ := ofContent?_accepted h
    exact ⟨hfits, Nat.le_trans hdepth (Json.ofNode?_accepted hvalue).1⟩
  · cases h

end Shape

/-! ## Restrictions -/

namespace Restriction

theorem ofNode?_accepted {d : Nat} {node : Node} {r : Restriction}
    (h : ofNode? d node = some r) : r.canonical = r ∧ r.toNode.depth ≤ d := by
  unfold ofNode? at h
  split at h
  · split at h
    · split at h
      · next low high hlow hhigh =>
        cases h
        rw [canonical, (Json.ofNode?_accepted hlow).2.1, (Json.ofNode?_accepted hhigh).2.1,
          depth_range, Nat.add_le_add_iff_right]
        exact ⟨rfl, Nat.max_le.2 ⟨depth_le_of_ofNode? hlow, depth_le_of_ofNode? hhigh⟩⟩
      · cases h
    · cases h
  · split at h
    · obtain ⟨values, hvalues, rfl⟩ := Option.map_eq_some_iff.1 h
      obtain ⟨items, -, hread⟩ := Option.bind_eq_some_iff.1 hvalues
      obtain ⟨hlevel, hall⟩ := ofNodes?_accepted hread
      have hitems : canonicalItems values = values :=
        canonicalItems_eq_self fun v hv => (hall v hv).1
      rw [canonical, hitems, depth_enumeration, Nat.add_le_add_iff_right, Node.itemsDepth_le_iff,
        toNodes_eq_map, List.forall_mem_map]
      exact ⟨rfl, fun v hv => Nat.le_trans (hall v hv).2 hlevel⟩
    · cases h
  · cases h

end Restriction

/-! ## Schemas -/

namespace SchemaEntry

theorem ofNode?_accepted {d : Nat} {node : Node} {entry : SchemaEntry}
    (h : ofNode? d node = some entry) :
    entry.shape.Fits ∧ entry.canonical = entry ∧ entry.toNode.depth ≤ d := by
  unfold ofNode? at h
  split at h
  · split at h
    · next key shape restriction label hkey hshape hrestriction hlabel =>
      cases h
      obtain ⟨hfits, hdepth⟩ := Shape.ofNode?_accepted hshape
      have hall : ∀ r ∈ restriction, r.canonical = r ∧ r.toNode.depth ≤ _ := fun r hr => by
        obtain ⟨part, -, hread⟩ := Node.exists_of_optional? hrestriction r hr
        exact Restriction.ofNode?_accepted hread
      refine ⟨hfits, ?_, depth_toNode_le_iff.2 ⟨hdepth, fun r hr => (hall r hr).2⟩⟩
      rw [canonical, Option.map_congr fun r hr => (hall r hr).1, Option.map_id']
    · cases h
  · cases h

end SchemaEntry

namespace Schema

theorem ofNode?_accepted {d : Nat} {node : Node} {schema : Schema}
    (h : ofNode? d node = some schema) :
    schema.Fits ∧ schema.canonical = schema ∧ schema.toNode.depth ≤ d := by
  unfold ofNode? at h
  split at h
  · obtain ⟨entries, hentries, rfl⟩ := Option.map_eq_some_iff.1 h
    obtain ⟨items, -, hread⟩ := Option.bind_eq_some_iff.1 hentries
    have hall : ∀ entry ∈ entries,
        entry.shape.Fits ∧ entry.canonical = entry ∧ entry.toNode.depth ≤ _ := fun entry he => by
      obtain ⟨item, -, heq⟩ := exists_of_mem_mapM hread entry he
      exact SchemaEntry.ofNode?_accepted heq
    refine ⟨fun entry he => (hall entry he).1, ?_, ?_⟩
    · rw [canonical, List.map_congr_left fun entry he => (hall entry he).2.1, List.map_id']
    · rw [depth_toNode, Nat.add_le_add_iff_right, Node.itemsDepth_le_iff, List.forall_mem_map]
      exact fun entry he => (hall entry he).2.2
  · cases h

end Schema

end SharedState
