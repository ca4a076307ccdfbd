import SharedState.Json.Value

/-!
# Depth and order of values

Two things decide what reading makes of a written value: how deep it nests, and
whether its objects are in the order of their keys. The depth is that of the
tree that writes it. `Json.canonical` puts every object in order, with the last
value of each key; what is canonical already stays as it is, so the canonical
values are the fixed points.
-/

namespace SharedState.Json

namespace Node

mutual

/-- The number of arrays and objects inside each other. -/
def depth : Node → Nat
  | .array items => itemsDepth items + 1
  | .object members => membersDepth members + 1
  | _ => 0

def itemsDepth : List Node → Nat
  | [] => 0
  | item :: rest => max item.depth (itemsDepth rest)

def membersDepth : List (Option String × Node) → Nat
  | [] => 0
  | (_, value) :: rest => max value.depth (membersDepth rest)

end

variable {d : Nat}

theorem itemsDepth_le_iff {items : List Node} :
    itemsDepth items ≤ d ↔ ∀ item ∈ items, item.depth ≤ d := by
  induction items with
  | nil => simp [itemsDepth]
  | cons item rest ih => rw [itemsDepth, Nat.max_le, List.forall_mem_cons, ih]

theorem membersDepth_le_iff {members : List (Option String × Node)} :
    membersDepth members ≤ d ↔ ∀ member ∈ members, member.2.depth ≤ d := by
  induction members with
  | nil => simp [membersDepth]
  | cons member rest ih => rw [membersDepth, Nat.max_le, List.forall_mem_cons, ih]

theorem depth_array_le_iff {items : List Node} :
    (array items).depth ≤ d + 1 ↔ ∀ item ∈ items, item.depth ≤ d := by
  rw [depth, Nat.add_le_add_iff_right, itemsDepth_le_iff]

theorem depth_object_le_iff {members : List (Option String × Node)} :
    (object members).depth ≤ d + 1 ↔ ∀ member ∈ members, member.2.depth ≤ d := by
  rw [depth, Nat.add_le_add_iff_right, membersDepth_le_iff]

end Node

/-- The number of arrays and objects inside each other. -/
def depth (value : Json) : Nat := value.toNode.depth

variable {members : List (String × Json)}

theorem toNodes_eq_map (items : List Json) : toNodes items = items.map toNode := by
  induction items with
  | nil => rfl
  | cons value rest ih => rw [toNodes, ih, List.map_cons]

theorem toMembers_eq_map (members : List (String × Json)) :
    toMembers members = members.map fun member => (some member.1, member.2.toNode) := by
  induction members with
  | nil => rfl
  | cons member rest ih => rw [toMembers, ih, List.map_cons]

theorem depth_array_le_iff {items : List Json} {d : Nat} :
    (array items).depth ≤ d + 1 ↔ ∀ item ∈ items, item.depth ≤ d := by
  rw [depth, toNode, Node.depth_array_le_iff, toNodes_eq_map, List.forall_mem_map]
  rfl

theorem depth_object_le_iff {d : Nat} :
    (object members).depth ≤ d + 1 ↔ ∀ member ∈ members, member.2.depth ≤ d := by
  rw [depth, toNode, Node.depth_object_le_iff, toMembers_eq_map, List.forall_mem_map]
  rfl

/-! ## Objects in order -/

/-- A key that is greater than all others goes to the end. -/
theorem insertEntry_of_lt {key : String} {value : Json}
    (h : ∀ member ∈ members, member.1 < key) :
    KeyMap.insertEntry key value members = members ++ [(key, value)] := by
  induction members with
  | nil => rfl
  | cons head rest ih =>
      obtain ⟨k, v⟩ := head
      have hk : k < key := h (k, v) List.mem_cons_self
      have hne : key ≠ k := fun heq => String.lt_irrefl k (heq ▸ hk)
      rw [KeyMap.insertEntry, if_neg (String.lt_asymm hk), if_neg hne,
        ih fun member hm => h member (List.mem_cons_of_mem _ hm)]
      rfl

theorem foldl_insertEntry_of_ordered {before : List (String × Json)}
    (h : (before ++ members).Pairwise (·.1 < ·.1)) :
    members.foldl (fun object (key, value) => KeyMap.insertEntry key value object) before =
      before ++ members := by
  induction members generalizing before with
  | nil => rw [List.append_nil, List.foldl_nil]
  | cons head rest ih =>
      obtain ⟨key, value⟩ := head
      have hbefore : ∀ member ∈ before, member.1 < key := fun member hm =>
        (List.pairwise_append.1 h).2.2 member hm (key, value) List.mem_cons_self
      rw [List.append_cons] at h ⊢
      rw [← ih h, ← insertEntry_of_lt hbefore]
      rfl

/-- Members that are in order make an object as they are. -/
theorem ofMembers_of_ordered (h : members.Pairwise (·.1 < ·.1)) :
    ofMembers members = .object members :=
  congrArg object (foldl_insertEntry_of_ordered (List.nil_append members ▸ h))

theorem foldl_insertEntry {before : List (String × Json)} (h : before.Pairwise (·.1 < ·.1)) :
    let found := members.foldl
      (fun object (key, value) => KeyMap.insertEntry key value object) before
    found.Pairwise (·.1 < ·.1) ∧ ∀ member ∈ found, member ∈ before ∨ member ∈ members := by
  induction members generalizing before with
  | nil => exact ⟨h, fun member hm => .inl hm⟩
  | cons head rest ih =>
      obtain ⟨hordered, hfrom⟩ := ih (KeyMap.pairwise_insertEntry h)
      refine ⟨hordered, fun member hm => ?_⟩
      rcases hfrom member hm with hm | hm
      · rcases KeyMap.mem_insertEntry hm with rfl | hm
        · exact .inr List.mem_cons_self
        · exact .inl hm
      · exact .inr (List.mem_cons_of_mem _ hm)

/-- An object has its members in order, and no others than it was made from. -/
theorem ofMembers_eq (members : List (String × Json)) :
    ∃ found, ofMembers members = .object found ∧ found.Pairwise (·.1 < ·.1) ∧
      ∀ member ∈ found, member ∈ members := by
  have hnone : ([] : List (String × Json)).Pairwise (·.1 < ·.1) := .nil
  obtain ⟨hordered, hfrom⟩ := foldl_insertEntry hnone
  exact ⟨_, rfl, hordered, fun member hm => (hfrom member hm).resolve_left List.not_mem_nil⟩

theorem perm_insertEntry {key : String} {value : Json} (h : key ∉ members.map (·.1)) :
    (KeyMap.insertEntry key value members).Perm ((key, value) :: members) := by
  fun_induction KeyMap.insertEntry key value members with
  | case1 => rfl
  | case2 => rfl
  | case3 => exact absurd List.mem_cons_self h
  | case4 k v rest _ _ ih =>
      have hrest : key ∉ rest.map (·.1) := fun hm => h (List.mem_cons_of_mem k hm)
      exact ((ih hrest).cons (k, v)).trans (.swap _ _ _)

theorem perm_foldl_insertEntry {before : List (String × Json)}
    (h : ((members ++ before).map (·.1)).Nodup) :
    (members.foldl (fun object (key, value) => KeyMap.insertEntry key value object)
      before).Perm (members ++ before) := by
  induction members generalizing before with
  | nil => rfl
  | cons head rest ih =>
      obtain ⟨key, value⟩ := head
      have hnew : key ∉ (rest ++ before).map (·.1) := (List.nodup_cons.1 h).1
      rw [List.map_append] at hnew
      have hbefore : key ∉ before.map (·.1) := fun hm => hnew (List.mem_append_right _ hm)
      have hinsert : (KeyMap.insertEntry key value before).Perm ((key, value) :: before) :=
        perm_insertEntry hbefore
      have hmove : (rest ++ KeyMap.insertEntry key value before).Perm
          ((key, value) :: (rest ++ before)) :=
        (hinsert.append_left rest).trans List.perm_middle
      exact (ih ((hmove.map (·.1)).nodup_iff.2 h)).trans hmove

/-- An object that is made from members with different keys has all of them. -/
theorem ofMembers_of_nodup (h : (members.map (·.1)).Nodup) :
    ∃ found, ofMembers members = .object found ∧ found.Perm members ∧
      ∀ member ∈ members, member? member.1 found = some member.2 := by
  obtain ⟨found, heq, hordered, -⟩ := ofMembers_eq members
  have hperm : found.Perm members := by
    have hfold := @perm_foldl_insertEntry members [] (by rwa [List.append_nil])
    rw [List.append_nil] at hfold
    exact (object.inj heq : _ = found) ▸ hfold
  refine ⟨found, heq, hperm, fun member hm => ?_⟩
  exact (⟨found, hordered⟩ : KeyMap Json).mem_entries_iff.1 (hperm.mem_iff.2 hm)

theorem depth_ofMembers_le {d : Nat} (h : ∀ member ∈ members, member.2.depth ≤ d) :
    (ofMembers members).depth ≤ d + 1 := by
  obtain ⟨found, heq, -, hfrom⟩ := ofMembers_eq members
  rw [heq, depth_object_le_iff]
  exact fun member hm => h member (hfrom member hm)

mutual

/-- The value with each key once and in ascending order in all of its objects. -/
def canonical : Json → Json
  | .array items => .array (canonicalItems items)
  | .object members => ofMembers (canonicalMembers members)
  | .null => .null
  | .bool b => .bool b
  | .number n => .number n
  | .string s => .string s

def canonicalItems : List Json → List Json
  | [] => []
  | value :: rest => value.canonical :: canonicalItems rest

def canonicalMembers : List (String × Json) → List (String × Json)
  | [] => []
  | (key, value) :: rest => (key, value.canonical) :: canonicalMembers rest

end

theorem canonicalItems_eq_self {items : List Json} (h : ∀ item ∈ items, item.canonical = item) :
    canonicalItems items = items := by
  induction items with
  | nil => rfl
  | cons value rest ih =>
      rw [canonicalItems, h value List.mem_cons_self,
        ih fun item hm => h item (List.mem_cons_of_mem _ hm)]

theorem canonicalMembers_eq_self (h : ∀ member ∈ members, member.2.canonical = member.2) :
    canonicalMembers members = members := by
  induction members with
  | nil => rfl
  | cons member rest ih =>
      rw [canonicalMembers, h member List.mem_cons_self,
        ih fun other hm => h other (List.mem_cons_of_mem _ hm)]

theorem canonical_array {items : List Json} (h : ∀ item ∈ items, item.canonical = item) :
    (array items).canonical = .array items := by
  rw [canonical, canonicalItems_eq_self h]

theorem canonical_ofMembers (h : ∀ member ∈ members, member.2.canonical = member.2) :
    (ofMembers members).canonical = ofMembers members := by
  obtain ⟨found, heq, hordered, hfrom⟩ := ofMembers_eq members
  rw [heq, canonical, canonicalMembers_eq_self fun member hm => h member (hfrom member hm)]
  exact ofMembers_of_ordered hordered

mutual

/-- There is nothing left to put in order. -/
theorem canonical_canonical (value : Json) : value.canonical.canonical = value.canonical := by
  cases value with
  | null | bool | number | string => rfl
  | array items =>
      rw [canonical]
      exact canonical_array (canonical_of_mem_canonicalItems items)
  | object members =>
      rw [canonical]
      exact canonical_ofMembers (canonical_of_mem_canonicalMembers members)

theorem canonical_of_mem_canonicalItems (items : List Json) :
    ∀ item ∈ canonicalItems items, item.canonical = item := by
  cases items with
  | nil => exact fun item hm => absurd hm List.not_mem_nil
  | cons value rest =>
      rw [canonicalItems, List.forall_mem_cons]
      exact ⟨canonical_canonical value, canonical_of_mem_canonicalItems rest⟩

theorem canonical_of_mem_canonicalMembers (members : List (String × Json)) :
    ∀ member ∈ canonicalMembers members, member.2.canonical = member.2 := by
  match members with
  | [] => exact fun member hm => absurd hm List.not_mem_nil
  | (key, value) :: rest =>
      rw [canonicalMembers, List.forall_mem_cons]
      exact ⟨canonical_canonical value, canonical_of_mem_canonicalMembers rest⟩

end

end SharedState.Json
