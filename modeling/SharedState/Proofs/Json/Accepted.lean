import SharedState.Proofs.Json.Record

/-!
# What reading accepts

The readers take more than the writers write: records as arrays, members in any
order and with others between them, objects that give a key twice. What they
make of it is less: a value that was read is canonical, and it nests no deeper
than the tree that it was read from, nor than the reader goes down.

For records the lemmas here lead from what was found back to where it stood, and
that is always inside the tree of the record.
-/

namespace SharedState.Json

/-- What an item of a list was read as was read from one of the trees. -/
theorem exists_of_mem_mapM {α β : Type} {read : α → Option β} {items : List α} {found : List β}
    (h : items.mapM read = some found) : ∀ b ∈ found, ∃ a ∈ items, read a = some b := by
  induction items generalizing found with
  | nil =>
      cases h
      exact fun b hb => absurd hb List.not_mem_nil
  | cons item rest ih =>
      rw [List.mapM_cons] at h
      obtain ⟨first, hfirst, h⟩ := Option.bind_eq_some_iff.1 h
      obtain ⟨others, hothers, h⟩ := Option.bind_eq_some_iff.1 h
      cases h
      rw [List.forall_mem_cons]
      refine ⟨⟨item, List.mem_cons_self, hfirst⟩, fun b hb => ?_⟩
      obtain ⟨a, ha, hread⟩ := ih hothers b hb
      exact ⟨a, List.mem_cons_of_mem item ha, hread⟩

/-! ## Values -/

mutual

/-- A tree is read as a canonical value, and only if reading can go down it. -/
theorem ofNode?_accepted {d : Nat} {node : Node} {value : Json} (h : ofNode? d node = some value) :
    node.depth ≤ d ∧ value.canonical = value ∧ value.depth ≤ node.depth := by
  match node with
  | .null | .bool _ =>
      cases h
      exact ⟨Nat.zero_le d, rfl, Nat.le_refl _⟩
  | .number negative numeral =>
      obtain ⟨n, -, rfl⟩ := Option.map_eq_some_iff.1 h
      exact ⟨Nat.zero_le d, rfl, Nat.le_refl _⟩
  | .string content =>
      obtain ⟨s, -, rfl⟩ := Option.map_eq_some_iff.1 h
      exact ⟨Nat.zero_le d, rfl, Nat.le_refl _⟩
  | .array items =>
      cases d with
      | zero => cases h
      | succ d =>
          obtain ⟨values, hread, rfl⟩ := Option.map_eq_some_iff.1 h
          obtain ⟨hlevel, hvalues⟩ := ofNodes?_accepted hread
          refine ⟨Nat.succ_le_succ hlevel, ?_, ?_⟩
          · exact canonical_array fun v hv => (hvalues v hv).1
          · exact depth_array_le_iff.2 fun v hv => (hvalues v hv).2
  | .object members =>
      cases d with
      | zero => cases h
      | succ d =>
          obtain ⟨found, hread, rfl⟩ := Option.map_eq_some_iff.1 h
          obtain ⟨hlevel, hvalues⟩ := ofMembers?_accepted hread
          refine ⟨Nat.succ_le_succ hlevel, ?_, ?_⟩
          · exact canonical_ofMembers fun m hm => (hvalues m hm).1
          · exact depth_ofMembers_le fun m hm => (hvalues m hm).2

theorem ofNodes?_accepted {d : Nat} {items : List Node} {values : List Json}
    (h : ofNodes? d items = some values) :
    Node.itemsDepth items ≤ d ∧
      ∀ v ∈ values, v.canonical = v ∧ v.depth ≤ Node.itemsDepth items := by
  match items with
  | [] =>
      cases h
      exact ⟨Nat.zero_le d, fun v hv => absurd hv List.not_mem_nil⟩
  | item :: rest =>
      rw [ofNodes?] at h
      split at h
      · next value others hvalue hothers =>
        cases h
        obtain ⟨hlevel, hcanonical, hdepth⟩ := ofNode?_accepted hvalue
        obtain ⟨hlevels, hrest⟩ := ofNodes?_accepted hothers
        rw [Node.itemsDepth, List.forall_mem_cons]
        refine ⟨Nat.max_le.2 ⟨hlevel, hlevels⟩, ?_, fun v hv => ?_⟩
        · exact ⟨hcanonical, Nat.le_trans hdepth (Nat.le_max_left ..)⟩
        · exact ⟨(hrest v hv).1, Nat.le_trans (hrest v hv).2 (Nat.le_max_right ..)⟩
      · cases h

theorem ofMembers?_accepted {d : Nat} {members : List (Option String × Node)}
    {found : List (String × Json)} (h : ofMembers? d members = some found) :
    Node.membersDepth members ≤ d ∧
      ∀ m ∈ found, m.2.canonical = m.2 ∧ m.2.depth ≤ Node.membersDepth members := by
  match members with
  | [] =>
      cases h
      exact ⟨Nat.zero_le d, fun m hm => absurd hm List.not_mem_nil⟩
  | (none, node) :: rest => cases h
  | (some key, node) :: rest =>
      simp only [ofMembers?] at h
      split at h
      · next value others hvalue hothers =>
        cases h
        obtain ⟨hlevel, hcanonical, hdepth⟩ := ofNode?_accepted hvalue
        obtain ⟨hlevels, hrest⟩ := ofMembers?_accepted hothers
        rw [Node.membersDepth, List.forall_mem_cons]
        refine ⟨Nat.max_le.2 ⟨hlevel, hlevels⟩, ?_, fun m hm => ?_⟩
        · exact ⟨hcanonical, Nat.le_trans hdepth (Nat.le_max_left ..)⟩
        · exact ⟨(hrest m hm).1, Nat.le_trans (hrest m hm).2 (Nat.le_max_right ..)⟩
      · cases h

end

/-- A value that was read nests no deeper than reading goes. -/
theorem depth_le_of_ofNode? {d : Nat} {node : Node} {value : Json}
    (h : ofNode? d node = some value) : value.depth ≤ d := by
  obtain ⟨hlevel, -, hdepth⟩ := ofNode?_accepted h
  exact Nat.le_trans hdepth hlevel

/-! ## Parts of records -/

namespace Node

variable {node part : Node} {names : List String} {found : List (Option Node)}

/-- What is found for a field stands inside the tree of the record. -/
theorem depth_lt_of_fields? (h : node.fields? names = some found) (hpart : some part ∈ found) :
    part.depth < node.depth := by
  cases node with
  | object members =>
      rw [fields?] at h
      split at h
      · obtain ⟨name, -, hfield⟩ := exists_of_mem_mapM h _ hpart
        have hmem : ∃ key, (key, part) ∈ members := by
          rw [field?] at hfield
          split at hfield
          · cases hfield
          · next key value heq =>
            cases hfield
            have hfiltered : (key, part) ∈ members.filter fun member => member.1 == some name := by
              rw [heq]
              exact List.mem_singleton_self _
            exact ⟨key, (List.mem_filter.1 hfiltered).1⟩
          · cases hfield
        obtain ⟨key, hmem⟩ := hmem
        exact Nat.lt_succ_of_le (membersDepth_le_iff.1 (Nat.le_refl _) _ hmem)
      · cases h
  | array items =>
      rw [fields?] at h
      split at h
      · cases h
        rcases List.mem_append.1 hpart with hmem | hmem
        · obtain ⟨item, hitem, heq⟩ := List.mem_map.1 hmem
          cases heq
          exact Nat.lt_succ_of_le (itemsDepth_le_iff.1 (Nat.le_refl _) _ hitem)
        · cases List.eq_of_mem_replicate hmem
      · cases h
  | null | bool | number | string => cases h

/-- A record nests deeper than its parts and no deeper than that. -/
theorem depth_record_le {members : List (String × Node)} {d : Nat}
    (h : ∀ member ∈ members, member.2.depth < d) (hd : 0 < d) : (record members).depth ≤ d := by
  obtain ⟨d, rfl⟩ := Nat.exists_eq_succ_of_ne_zero hd.ne'
  exact depth_record_le_iff.2 fun member hm => Nat.le_of_lt_succ (h member hm)

theorem natural?_le {limit n : Nat} (h : node.natural? limit = some n) : n ≤ limit := by
  unfold natural? at h
  split at h
  · dsimp only at h
    split at h
    · next hle =>
      cases h
      exact hle
    · cases h
  · cases h

theorem eq_array_of_items? {items : List Node} (h : node.items? = some items) :
    node = .array items := by
  unfold items? at h
  split at h
  · cases h
    rfl
  · cases h

/-- A part that may be absent was read if there is one now. -/
theorem exists_of_optional? {α : Type} {read : Node → Option α} {given : Option Node}
    {result : Option α} (h : optional? read given = some result) :
    ∀ a ∈ result, ∃ part, given = some part ∧ read part = some a := by
  intro a ha
  cases ha
  unfold optional? at h
  split at h
  · cases h
  · cases h
  · next part hnull =>
    obtain ⟨b, hb, heq⟩ := Option.map_eq_some_iff.1 h
    cases heq
    exact ⟨part, rfl, hb⟩

end Node

end SharedState.Json
