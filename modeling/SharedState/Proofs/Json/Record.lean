import SharedState.Json.Fields
import SharedState.Proofs.Json.Value

/-!
# Written records are read back

What the readers of records find in the trees that the writers make: a list of
things is read by reading each, a part that may be absent is read if it is there,
and a record goes one level deeper than its parts.

Most parts of a record are no values themselves, but each of them is written by
a tree that also writes some value. That is all that is needed to print the tree
and to look through it, and `IsValue` says it without naming the value.
-/

namespace SharedState.Json

/-- Reading all items of what was written for a list. -/
theorem mapM_read {α β γ : Type} {write : α → γ} {read : γ → Option β} {found : α → β}
    {p : α → Prop} [DecidablePred p] {items : List α}
    (h : ∀ item ∈ items, read (write item) = if p item then some (found item) else none) :
    (items.map write).mapM read =
      if ∀ item ∈ items, p item then some (items.map found) else none := by
  induction items with
  | nil => simp
  | cons item rest ih =>
      have hrest := ih fun other hm => h other (List.mem_cons_of_mem item hm)
      rw [List.map_cons, List.mapM_cons, h item List.mem_cons_self, hrest]
      simp only [List.forall_mem_cons]
      by_cases hp : p item
      · by_cases hall : ∀ other ∈ rest, p other
        · rw [if_pos hp, if_pos hall, if_pos ⟨hp, hall⟩]
          rfl
        · rw [if_pos hp, if_neg hall, if_neg fun hboth => hall hboth.2]
          rfl
      · have hnot : ¬ (p item ∧ ∀ other ∈ rest, p other) := fun hboth => hp hboth.1
        rw [if_neg hp, if_neg hnot]
        rfl

namespace Node

/-! ## Parts of a record -/

variable {members : List (String × Node)} {d : Nat}

theorem depth_record_le_iff :
    (record members).depth ≤ d + 1 ↔ ∀ member ∈ members, member.2.depth ≤ d := by
  rw [record, depth_object_le_iff, List.forall_mem_map]

theorem not_depth_record_le_zero : ¬ (record members).depth ≤ 0 := by
  rw [record, depth]
  omega

/-- A part of a record that may be absent, and whose tree is never a null. -/
theorem optional?_map {α β : Type} {write : α → Node} {read : Node → Option β} {found : α → β}
    {p : α → Prop} [DecidablePred p] {part : Option α} (hnull : ∀ a, write a ≠ .null)
    (h : ∀ a ∈ part, read (write a) = if p a then some (found a) else none) :
    optional? read (part.map write) =
      if ∀ a ∈ part, p a then some (part.map found) else none := by
  cases part with
  | none => simp [optional?]
  | some a =>
      have hread : optional? read (some (write a)) = (read (write a)).map some := by
        rw [optional?]
        exact fun heq => hnull a heq
      rw [Option.map_some, hread, h a rfl]
      simp only [Option.mem_some_iff, forall_eq']
      split <;> rfl

/-! ## Trees of values -/

/-- The tree is what is written for some value. -/
def IsValue (node : Node) : Prop :=
  ∃ value : Json, value.toNode = node

theorem isValue_toNode (value : Json) : value.toNode.IsValue := ⟨value, rfl⟩

theorem isValue_text (s : String) : (text s).IsValue := ⟨.string s, rfl⟩

theorem isValue_array {items : List Node} (h : ∀ item ∈ items, item.IsValue) :
    (array items).IsValue := by
  have hvalues : ∃ values, toNodes values = items := by
    induction items with
    | nil => exact ⟨[], rfl⟩
    | cons item rest ih =>
        obtain ⟨value, rfl⟩ := h item List.mem_cons_self
        obtain ⟨values, rfl⟩ := ih fun other hm => h other (List.mem_cons_of_mem _ hm)
        exact ⟨value :: values, rfl⟩
  obtain ⟨values, rfl⟩ := hvalues
  exact ⟨.array values, rfl⟩

theorem isValue_record (h : ∀ member ∈ members, member.2.IsValue) : (record members).IsValue := by
  have hvalues : ∃ values,
      toMembers values = members.map fun member => (some member.1, member.2) := by
    induction members with
    | nil => exact ⟨[], rfl⟩
    | cons member rest ih =>
        obtain ⟨key, node⟩ := member
        obtain ⟨value, rfl⟩ : node.IsValue := h (key, node) List.mem_cons_self
        obtain ⟨values, hrest⟩ := ih fun other hm => h other (List.mem_cons_of_mem _ hm)
        refine ⟨(key, value) :: values, ?_⟩
        rw [toMembers, hrest]
        rfl
  obtain ⟨values, hvalues⟩ := hvalues
  exact ⟨.object values, by rw [toNode, hvalues, record]⟩

variable {node : Node}

theorem IsValue.printable (h : node.IsValue) : node.Printable := by
  obtain ⟨value, rfl⟩ := h
  exact printable_toNode value

/-- Such a tree can be looked through as far down as it goes. -/
theorem IsValue.isSome_ofNode?_iff (h : node.IsValue) :
    (Json.ofNode? d node).isSome = true ↔ node.depth ≤ d := by
  obtain ⟨value, rfl⟩ := h
  rw [ofNode?_toNode]
  by_cases hdepth : value.depth ≤ d
  · rw [if_pos hdepth]
    exact ⟨fun _ => hdepth, fun _ => rfl⟩
  · rw [if_neg hdepth]
    exact ⟨nofun, fun hd => absurd hd hdepth⟩

end Node

end SharedState.Json
