import SharedState.Proofs.Store.Batch

/-!
# What a change leaves of an element

Two things about an element are followed here through the changes of a store.
One is its nature, which is what its creation fixes: the kind, the constraint
and whether it is exposed. The other is its stamp. Every change says of one key
at most that it is stamped anew or that it is gone, and a batch of updates says
it of one key after another; no change but a removal touches a nature.
-/

namespace SharedState

/-- What is fixed about an element when it is created. -/
def Element.nature (e : Element) : Kind × Constraint × Bool :=
  (e.kind, e.constraint, e.exposed)

namespace Constraint

/-- The bounds or members of a constraint are values of a kind, and a range is
one of numbers and not empty. -/
def Fits (kind : Kind) : Constraint → Prop
  | unconstrained => True
  | range min max => kind.isNumeric = true ∧ min.kind = kind ∧ max.kind = kind ∧
      min.atMost max = true ∧ min ≠ .float .nan ∧ max ≠ .float .nan
  | allowed values => ∀ value ∈ values, value.kind = kind

/-- What is at most something is a number, and so is what it is at most. -/
theorem ne_nan_of_atMost {a b : Value} (h : a.atMost b = true) :
    a ≠ .float .nan ∧ b ≠ .float .nan := by
  constructor
  · intro ha
    subst ha
    cases b <;> cases h
  · intro hb
    subst hb
    cases a with
    | float x =>
        simp only [Value.atMost, Binary.le, Binary.rank?] at h
        split at h <;> simp_all
    | _ => cases h

theorem validateFor_eq_ok_iff {key : String} {kind : Kind} {constraint : Constraint} :
    constraint.validateFor key kind = .ok () ↔ constraint.Fits kind := by
  cases constraint with
  | unconstrained => exact ⟨fun _ => trivial, fun _ => rfl⟩
  | allowed values => exact requireKind_eq_ok_iff
  | range min max =>
      simp only [validateFor, Fits]
      split
      · next hnum =>
        rw [bind_eq_ok_iff]
        constructor
        · intro h
          obtain ⟨_, hkinds, hle⟩ := h
          have hkinds := requireKind_eq_ok_iff.1 hkinds
          split at hle
          · next hle' =>
            obtain ⟨hmin, hmax⟩ := ne_nan_of_atMost hle'
            exact ⟨hnum, hkinds min (by simp), hkinds max (by simp), hle', hmin, hmax⟩
          · cases hle
        · intro h
          obtain ⟨-, hmin, hmax, hle, -, -⟩ := h
          refine ⟨(), requireKind_eq_ok_iff.2 ?_, if_pos hle⟩
          intro value hvalue
          simp only [List.mem_cons, List.not_mem_nil, or_false] at hvalue
          rcases hvalue with rfl | rfl
          · exact hmin
          · exact hmax
      · next hnum =>
        constructor
        · intro h
          cases h
        · intro h
          exact absurd h.1 hnum

end Constraint

namespace Store

variable {s : Store} {key key' : String} {done : Store × Commit}

def stamp? (s : Store) (key : String) : Option Nat :=
  (s.elements.find? key).map (·.lastModified)

def nature? (s : Store) (key : String) : Option (Kind × Constraint × Bool) :=
  (s.elements.find? key).map Element.nature

/-! ## One change -/

theorem touch_stamp? (e : Element) (mutation : Mutation) (kinds : List EventKind) :
    (s.touch e mutation kinds).1.stamp? key =
      if key = e.key then some e.lastModified else s.stamp? key := by
  rw [stamp?, touch_elements, KeyMap.find?_insert]
  split <;> rfl

theorem touch_nature? (e : Element) (mutation : Mutation) (kinds : List EventKind) :
    (s.touch e mutation kinds).1.nature? key =
      if key = e.key then some e.nature else s.nature? key := by
  rw [nature?, touch_elements, KeyMap.find?_insert]
  split <;> rfl

theorem stamp?_add {spec : Spec} (hd : s.add spec = .ok done) :
    done.1.stamp? key = if key = spec.key then some (s.revision + 1) else s.stamp? key := by
  obtain ⟨-, e, he, rfl⟩ := add_eq_ok_iff.1 hd
  obtain ⟨rfl, -⟩ := Spec.create_eq_ok_iff.1 he
  exact touch_stamp? ..

theorem nature?_add {spec : Spec} (hd : s.add spec = .ok done) {nature}
    (h : s.nature? key = some nature) : done.1.nature? key = some nature := by
  obtain ⟨hnone, e, he, rfl⟩ := add_eq_ok_iff.1 hd
  obtain ⟨rfl, -⟩ := Spec.create_eq_ok_iff.1 he
  rw [touch_nature?, if_neg, h]
  rintro rfl
  rw [nature?, hnone] at h
  cases h

theorem Sound.stamp?_update (h : s.Sound) {value : Value}
    (hd : s.update key value = .ok done) :
    done.1.stamp? key' = if key' = key then some (s.revision + 1) else s.stamp? key' := by
  obtain ⟨e, he, -, rfl⟩ := update_eq_ok_iff.1 hd
  obtain rfl := h.keyed he
  exact touch_stamp? ..

theorem Sound.nature?_update (h : s.Sound) {value : Value}
    (hd : s.update key value = .ok done) : done.1.nature? key' = s.nature? key' := by
  obtain ⟨e, he, hc, rfl⟩ := update_eq_ok_iff.1 hd
  obtain rfl := h.keyed he
  have hkind := (Element.checkUpdate_eq_ok_iff.1 hc).1
  rw [touch_nature?]
  split
  · next hk =>
    rw [hk, nature?, he]
    exact congrArg some (Prod.ext hkind.symm rfl)
  · rfl

theorem Sound.stamp?_annotate (h : s.Sound) {label : String}
    (hd : s.annotate key label = .ok done) :
    done.1.stamp? key' = if key' = key then some (s.revision + 1) else s.stamp? key' := by
  obtain ⟨e, he, rfl⟩ := annotate_eq_ok_iff.1 hd
  obtain rfl := h.keyed he
  exact touch_stamp? ..

theorem Sound.nature?_annotate (h : s.Sound) {label : String}
    (hd : s.annotate key label = .ok done) : done.1.nature? key' = s.nature? key' := by
  obtain ⟨e, he, rfl⟩ := annotate_eq_ok_iff.1 hd
  obtain rfl := h.keyed he
  rw [touch_nature?]
  split
  · next hk =>
    rw [hk, nature?, he]
    rfl
  · rfl

theorem stamp?_remove (hd : s.remove key = .ok done) :
    done.1.stamp? key' = if key' = key then none else s.stamp? key' := by
  obtain ⟨e, -, rfl⟩ := remove_eq_ok_iff.1 hd
  rw [stamp?, KeyMap.find?_erase]
  split <;> rfl

theorem nature?_remove (hd : s.remove key = .ok done) (hne : key' ≠ key) :
    done.1.nature? key' = s.nature? key' := by
  obtain ⟨e, -, rfl⟩ := remove_eq_ok_iff.1 hd
  rw [nature?, KeyMap.find?_erase, if_neg hne]
  rfl

/-! ## A batch of updates -/

variable {updates : List (String × Value)}

theorem Sound.nature?_updateAll (h : s.Sound) (ht : s.Takes updates) :
    (s.updateAll updates).nature? key = s.nature? key := by
  induction updates generalizing s with
  | nil => rfl
  | cons u rest ih =>
      obtain ⟨done, hd, hs, hrest⟩ := h.first ht
      show ((s.updated u).updateAll rest).nature? key = _
      rw [updated_eq hd, ih hs hrest, h.nature?_update hd]

/-- Of the revisions that a batch makes, the last one made for a key is the
stamp that stays. -/
theorem Sound.stamp?_updateAll (h : s.Sound) (ht : s.Takes updates) :
    (s.updateAll updates).stamp? key =
      (((updates.map (·.1)).zip ((List.range' (s.revision + 1) updates.length).map
        some)).reverse.lookup key).getD (s.stamp? key) := by
  induction updates generalizing s with
  | nil => rfl
  | cons u rest ih =>
      obtain ⟨done, hd, hs, hrest⟩ := h.first ht
      have hnext := (Step.update hd).counts.1
      have hfirst : done.1.stamp? key = _ := h.stamp?_update hd
      show ((s.updated u).updateAll rest).stamp? key = _
      rw [updated_eq hd, ih hs hrest, hnext, List.length_cons, List.range'_succ, List.map_cons,
        List.map_cons, List.zip_cons_cons, List.reverse_cons, List.lookup_append]
      cases List.lookup key (List.reverse _) with
      | some found => rfl
      | none =>
          rw [Option.none_or, KeyMap.lookup_cons_eq]
          rw [Option.getD_none, hfirst]
          split <;> rfl

end Store

end SharedState
