import SharedState.Proofs.Store.Standing
import SharedState.Proofs.Value.Wire

/-!
# What a published restriction allows

A schema publishes the constraint of an element as its bounds or members in
wire form. Whoever holds only the schema gets the kind of the element from the
shape, reads the bounds or members as values of that kind and compares as a
store compares. From a constraint that fits its kind nothing is lost on the
way: the restriction allows exactly the values that the constraint admits.

It does not follow that it allows the values that it names. The bounds of a
range are compared when the range is made and have to be numbers for that. The
members of a set are not, and one that has anything in it that is not a number
agrees with nothing, itself included.
-/

namespace SharedState

/-! ## What is not a number -/

theorem Binary.sameNumber_self_iff {f : Format} {x : Binary f} :
    x.sameNumber x = true ↔ x ≠ .nan := by
  cases x <;> simp [sameNumber, rank?]

theorem Binary.ne_nan_of_sameNumber {f : Format} {x y : Binary f} (h : x.sameNumber y = true) :
    y ≠ .nan := by
  rintro rfl
  cases x <;> cases h

namespace Matrix

theorem agrees_iff {a b : Matrix} :
    a.agrees b = true ↔ ∀ i (hi : i < matrixSize), a[i].sameNumber b[i] = true := by
  rw [agrees, List.all_eq_true]
  constructor
  · intro h i hi
    refine h (a[i], b[i]) (List.mem_iff_getElem.2 ⟨i, by simpa using hi, ?_⟩)
    simp
  · rintro h ⟨x, y⟩ hxy
    obtain ⟨i, hi, heq⟩ := List.mem_iff_getElem.1 hxy
    simp only [List.getElem_zip, Vector.getElem_toList, Prod.mk.injEq] at heq
    obtain ⟨rfl, rfl⟩ := heq
    exact h i (by simpa using hi)

theorem nan_not_mem_of_agrees {a b : Matrix} (h : a.agrees b = true) : Binary.nan ∉ b := by
  intro hmem
  obtain ⟨i, hi, hnan⟩ := Vector.mem_iff_getElem.1 hmem
  exact Binary.ne_nan_of_sameNumber (agrees_iff.1 h i hi) hnan

theorem agrees_self {m : Matrix} (h : Binary.nan ∉ m) : m.agrees m = true := by
  rw [agrees_iff]
  intro i hi
  refine Binary.sameNumber_self_iff.2 fun hnan => h ?_
  exact Vector.mem_iff_getElem.2 ⟨i, hi, hnan⟩

end Matrix

namespace Value

/-- Something in the value is not a number. -/
def HoldsNaN : Value → Prop
  | float x => x = .nan
  | matrix m => Binary.nan ∈ m
  | viewer v => Binary.nan ∈ v.projection ∨ Binary.nan ∈ v.modelview ∨ v.timestamp = .nan
  | _ => False

instance decidableHoldsNaN : DecidablePred HoldsNaN
  | float x => inferInstanceAs (Decidable (x = .nan))
  | matrix m => inferInstanceAs (Decidable (Binary.nan ∈ m))
  | viewer v => inferInstanceAs (Decidable
      (Binary.nan ∈ v.projection ∨ Binary.nan ∈ v.modelview ∨ v.timestamp = .nan))
  | integer _ | boolean _ | string _ | bytes _ => inferInstanceAs (Decidable False)

/-- Nothing agrees with a value that holds what is not a number. -/
theorem not_holdsNaN_of_agrees {a b : Value} (h : a.agrees b = true) : ¬ b.HoldsNaN := by
  -- values of two kinds do not agree, which leaves a case for each kind
  cases a <;> cases b <;> try cases h
  case float.float => exact Binary.ne_nan_of_sameNumber h
  case matrix.matrix => exact Matrix.nan_not_mem_of_agrees h
  case viewer.viewer =>
    simp only [agrees, Viewer.agrees, Bool.and_eq_true] at h
    obtain ⟨⟨⟨⟨-, hprojection⟩, hmodelview⟩, htime⟩, -⟩ := h
    rintro (hnan | hnan | hnan)
    · exact Matrix.nan_not_mem_of_agrees hprojection hnan
    · exact Matrix.nan_not_mem_of_agrees hmodelview hnan
    · exact Binary.ne_nan_of_sameNumber htime hnan
  all_goals exact id

theorem agrees_self {v : Value} (h : ¬ v.HoldsNaN) : v.agrees v = true := by
  cases v with
  | float x => exact Binary.sameNumber_self_iff.2 h
  | matrix m => exact Matrix.agrees_self h
  | viewer v =>
      simp only [HoldsNaN, not_or] at h
      obtain ⟨hprojection, hmodelview, htime⟩ := h
      simp [agrees, Viewer.agrees, Matrix.agrees_self hprojection, Matrix.agrees_self hmodelview,
        Binary.sameNumber_self_iff.2 htime]
  | _ => exact beq_self_eq_true _

/-- Values that are in order are numbers, and at most themselves. -/
theorem atMost_self_of_atMost {a b : Value} (h : a.atMost b = true) :
    a.atMost a = true ∧ b.atMost b = true ∧ ¬ a.HoldsNaN ∧ ¬ b.HoldsNaN := by
  obtain ⟨ha, hb⟩ := Constraint.ne_nan_of_atMost h
  have hself : ∀ x : Double, Value.float x ≠ .float .nan → x.le x = true ∧ x ≠ .nan := by
    intro x hx
    have hne : x ≠ .nan := fun hnan => hx (congrArg float hnan)
    have hsame := Binary.sameNumber_self_iff.2 hne
    rw [Binary.sameNumber_iff, Bool.and_eq_true] at hsame
    exact ⟨hsame.1, hne⟩
  cases a <;> cases b <;> try cases h
  case integer.integer i j => exact ⟨by simp [atMost], by simp [atMost], id, id⟩
  case float.float x y =>
    obtain ⟨hx, hxnan⟩ := hself x ha
    obtain ⟨hy, hynan⟩ := hself y hb
    exact ⟨hx, hy, hxnan, hynan⟩

end Value

/-! ## What is allowed -/

namespace Restriction

/-- The restriction of a key, read at a kind, allows a value. -/
def Allows (key : String) (kind : Kind) (value : Value) : Restriction → Prop
  | range min max => ∃ low high, Value.ofWire key kind min = .ok low ∧
      Value.ofWire key kind max = .ok high ∧ low.atMost value = true ∧ value.atMost high = true
  | enumeration values => ∃ wire ∈ values, ∃ member,
      Value.ofWire key kind wire = .ok member ∧ member.agrees value = true

/-- The wire values that a restriction spells out. -/
def named : Restriction → List Json
  | range min max => [min, max]
  | enumeration values => values

/-- Whether the restriction allows a value, as a client computes it. -/
def permits (key : String) (kind : Kind) (value : Value) : Restriction → Bool
  | range min max =>
    match Value.ofWire key kind min, Value.ofWire key kind max with
    | .ok low, .ok high => low.atMost value && value.atMost high
    | _, _ => false
  | enumeration values => values.any fun wire =>
    match Value.ofWire key kind wire with
    | .ok member => member.agrees value
    | .error _ => false

variable {key : String} {kind : Kind} {value : Value}

theorem permits_iff {r : Restriction} :
    r.permits key kind value = true ↔ r.Allows key kind value := by
  cases r with
  | range min max =>
      simp only [permits, Allows]
      cases Value.ofWire key kind min with
      | error e => simp
      | ok low => cases Value.ofWire key kind max <;> simp
  | enumeration values =>
      simp only [permits, Allows, List.any_eq_true]
      refine exists_congr fun wire => and_congr_right fun _ => ?_
      cases Value.ofWire key kind wire <;> simp

/-- A range allows only numbers. -/
theorem ne_nan_of_allows_range {min max : Json} (h : (range min max).Allows key kind value) :
    value ≠ .float .nan := by
  obtain ⟨_, _, -, -, -, hmax⟩ := h
  exact (Constraint.ne_nan_of_atMost hmax).1

end Restriction

namespace Constraint

variable {key : String} {kind : Kind} {value : Value}

theorem ofWire_toWire_of_kind (h : value.kind = kind) :
    Value.ofWire key kind value.toWire = .ok value := by
  rw [← h]
  exact Value.ofWire_toWire key value

/-- What is published of a constraint that fits its kind allows what the constraint admits. -/
theorem Fits.allows_iff {c : Constraint} (h : c.Fits kind) :
    (∀ r, Restriction.ofConstraint? c = some r → r.Allows key kind value) ↔
      c.admits value = true := by
  cases c with
  | unconstrained => exact ⟨fun _ => rfl, fun _ => nofun⟩
  | range min max =>
      obtain ⟨-, hmin, hmax, -⟩ := h
      simp only [Restriction.ofConstraint?, Option.some.injEq, forall_eq', Restriction.Allows,
        ofWire_toWire_of_kind hmin, ofWire_toWire_of_kind hmax, Except.ok.injEq, admits,
        Bool.and_eq_true]
      constructor
      · rintro ⟨_, _, rfl, rfl, hlow, hhigh⟩
        exact ⟨hlow, hhigh⟩
      · rintro ⟨hlow, hhigh⟩
        exact ⟨min, max, rfl, rfl, hlow, hhigh⟩
  | allowed values =>
      simp only [Restriction.ofConstraint?, Option.some.injEq, forall_eq', Restriction.Allows,
        List.mem_map, admits, List.any_eq_true]
      constructor
      · rintro ⟨_, ⟨member, hmember, rfl⟩, v, hv, hagrees⟩
        rw [ofWire_toWire_of_kind (h member hmember)] at hv
        cases hv
        exact ⟨member, hmember, hagrees⟩
      · rintro ⟨member, hmember, hagrees⟩
        exact ⟨_, ⟨member, hmember, rfl⟩, member, ofWire_toWire_of_kind (h member hmember),
          hagrees⟩

/-- A value that a constraint publishes is read back from its wire form, and the constraint
admits it exactly if everything in it is a number, which holds of the bounds of a range. -/
theorem Fits.named {c : Constraint} (h : c.Fits kind) (key : String) {r : Restriction}
    (hr : Restriction.ofConstraint? c = some r) {wire : Json} (hwire : wire ∈ r.named) :
    ∃ v, Value.ofWire key kind wire = .ok v ∧ wire = v.toWire ∧
      (c.admits v = true ↔ ¬ v.HoldsNaN) ∧
      ((∃ min max, r = .range min max) → ¬ v.HoldsNaN) := by
  cases c with
  | unconstrained => cases hr
  | range min max =>
      cases hr
      obtain ⟨-, hmin, hmax, hle, -, -⟩ := h
      obtain ⟨hlow, hhigh, hminNaN, hmaxNaN⟩ := Value.atMost_self_of_atMost hle
      simp only [Restriction.named, List.mem_cons, List.not_mem_nil, or_false] at hwire
      rcases hwire with rfl | rfl
      · refine ⟨min, ofWire_toWire_of_kind hmin, rfl, ?_, fun _ => hminNaN⟩
        simp [admits, hlow, hle, hminNaN]
      · refine ⟨max, ofWire_toWire_of_kind hmax, rfl, ?_, fun _ => hmaxNaN⟩
        simp [admits, hhigh, hle, hmaxNaN]
  | allowed values =>
      cases hr
      obtain ⟨v, hv, rfl⟩ := List.mem_map.1 hwire
      refine ⟨v, ofWire_toWire_of_kind (h v hv), rfl, ?_, nofun⟩
      -- being a member is not enough: the value has to agree with a member, if only with itself
      rw [admits, List.any_eq_true]
      constructor
      · rintro ⟨member, -, hagrees⟩
        exact Value.not_holdsNaN_of_agrees hagrees
      · intro hnumber
        exact ⟨v, hv, Value.agrees_self hnumber⟩

end Constraint

/-! ## Deciding by the schema alone -/

/-- The kind whose values have a shape. -/
def Shape.kind? (shape : Shape) : Option Kind :=
  Kind.all.find? fun kind => Shape.ofKind kind = shape

theorem Shape.kind?_ofKind (kind : Kind) : (Shape.ofKind kind).kind? = some kind := by
  cases kind <;> rfl

/-- Whether an update with a wire value is expected to be accepted, by a schema. -/
def Schema.foresees (schema : Schema) (key : String) (wire : Json) : Bool :=
  match schema.find? key with
  | none => false
  | some entry =>
    match entry.shape.kind? with
    | none => false
    | some kind =>
      match Value.ofWire key kind wire with
      | .ok value => entry.restriction.all (·.permits key kind value)
      | .error _ => false

theorem Schema.foresees_iff {schema : Schema} {key : String} {wire : Json} {entry : SchemaEntry}
    {kind : Kind} (hentry : schema.find? key = some entry) (hshape : entry.shape = .ofKind kind) :
    schema.foresees key wire = true ↔ ∃ value, Value.ofWire key kind wire = .ok value ∧
      ∀ r, entry.restriction = some r → r.Allows key kind value := by
  simp only [foresees, hentry, hshape, Shape.kind?_ofKind]
  cases Value.ofWire key kind wire with
  | error e => simp
  | ok value =>
      cases entry.restriction with
      | none => simp
      | some r => simp [Restriction.permits_iff]

end SharedState
