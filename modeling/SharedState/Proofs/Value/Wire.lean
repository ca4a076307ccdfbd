import SharedState.KeyMap
import SharedState.Proofs.Base64
import SharedState.Proofs.Number.Exact
import SharedState.Value.Wire

/-!
# Values are read back from their wire form

What is written for a value is read as that value again, whenever it is read as
the kind of the value. Numbers that are not finite go by their names, blobs by
their Base64 text, and the components of a matrix are widened on the way out
and narrowed on the way in, which `Binary.narrow_widen` says is no loss.

The other way round is a matter of the kind. Most kinds are read from more than
is written for them, but a text is only read from itself, and a blob only from
the one Base64 text that is written for it.
-/

namespace SharedState

namespace Value

theorem readInteger_wire (key : String) (i : Int64) :
    readInteger key (.number (.ofInt64 i)) = .ok i := by
  have hlow := i.le_toInt
  have hhigh := i.toInt_lt
  have hfits : -(1 <<< 63 : Nat) ≤ i.toInt ∧ i.toInt < (1 <<< 63 : Nat) := ⟨hlow, hhigh⟩
  have hread : (Json.Number.ofInt64 i).toInt64? = some i := by
    simp only [Json.Number.ofInt64, Json.Number.toInt64?]
    rw [if_pos hfits, Int64.ofInt_toInt]
  simp only [readInteger, hread]

theorem eq_of_not_finite {x : Double} (h : ¬ x.isFinite = true) :
    x = .nan ∨ x = .infinite false ∨ x = .infinite true := by
  cases x with
  | nan => exact .inl rfl
  | number negative place =>
      have hplace : place = ⟨Format.double.infinity, Nat.lt_succ_self _⟩ := by
        have hle := Nat.lt_succ_iff.1 place.isLt
        have hnot : ¬ place.val < Format.double.infinity := by simpa [Binary.isFinite] using h
        exact Fin.ext (Nat.le_antisymm hle (Nat.not_lt.1 hnot))
      subst hplace
      right
      cases negative with
      | false => exact .inl rfl
      | true => exact .inr rfl

theorem read?_write_of_not_finite {x : Double} (h : ¬ x.isFinite = true) :
    Binary.read? (Text.trim (NumberStyle.plain.write x)) = some x := by
  rcases eq_of_not_finite h with rfl | rfl | rfl <;> decide

theorem readFloat_wire (key : String) (x : Double) : readFloat key (floatWire x) = .ok x := by
  unfold floatWire Json.Number.ofDouble?
  by_cases h : x.isFinite = true
  · rw [dif_pos h]
    rfl
  · rw [dif_neg h]
    simp only [readFloat, String.toList_ofList, read?_write_of_not_finite h]

theorem ofComponents_toList (key : String) (m : Matrix) :
    Matrix.ofComponents key m.toList = .ok m := by
  rw [Matrix.ofComponents, Matrix.ofList?, dif_pos m.length_toList]
  simp [Vector.toList]

theorem readMatrix_wire (key : String) (m : Matrix) : readMatrix key (matrixWire m) = .ok m := by
  have hitems : ∀ components : List Single,
      (components.map fun x => floatWire x.widen).mapM
        (fun item => (readFloat key item).map Binary.narrow) = .ok components := by
    intro components
    induction components with
    | nil => rfl
    | cons x rest ih =>
        rw [List.map_cons, List.mapM_cons, ih, readFloat_wire]
        show Except.ok (x.widen.narrow :: rest) = _
        rw [Binary.narrow_widen]
  simp only [readMatrix, matrixWire, hitems m.toList]
  simp only [bind, Except.bind, if_pos m.length_toList, ofComponents_toList]

theorem readBytes_wire (key : String) (b : List UInt8) :
    readBytes key (.string (String.ofList ((Base64.encode b).map charOf))) = .ok b := by
  simp only [readBytes, toUTF8_charOf (Base64.encode_lt b), Base64.decode_encode]

theorem readViewer_wire (key : String) (v : Viewer) :
    readViewer key (toWire (.viewer v)) = .ok v := by
  simp [toWire, Json.ofMembers, readViewer, viewerField, Json.member?,
    KeyMap.lookup_insertEntry, readInteger_wire, readMatrix_wire, readFloat_wire, bind,
    Except.bind]

/-- A value is read back from its wire form as its own kind. -/
theorem ofWire_toWire (key : String) (v : Value) : ofWire key v.kind v.toWire = .ok v := by
  cases v with
  | integer i =>
      simp only [kind, toWire, ofWire, readInteger_wire]
      rfl
  | float x =>
      simp only [kind, toWire, ofWire, readFloat_wire]
      rfl
  | boolean b => rfl
  | string s => rfl
  | bytes b =>
      show (readBytes key (.string (String.ofList ((Base64.encode b).map charOf)))).map _ = _
      rw [readBytes_wire]
      rfl
  | matrix m =>
      simp only [kind, toWire, ofWire, readMatrix_wire]
      rfl
  | viewer v =>
      simp only [kind, ofWire, readViewer_wire]
      rfl

/-! ## Kinds that have one wire form -/

theorem toWire_of_readString {key : String} {json : Json} {s : String}
    (h : readString key json = .ok s) : (string s).toWire = json := by
  unfold readString at h
  split at h
  · cases h
    rfl
  · cases h

theorem toWire_of_readBytes {key : String} {json : Json} {b : List UInt8}
    (h : readBytes key json = .ok b) : (bytes b).toWire = json := by
  unfold readBytes at h
  split at h
  · split at h
    · next hb =>
      cases h
      apply congrArg Json.string
      apply eq_of_toUTF8
      exact (toUTF8_charOf (Base64.encode_lt b)).trans (Base64.encode_of_decode hb)
    · cases h
  · cases h

theorem toWire_of_ofWire {key : String} {kind : Kind} (hkind : kind = .string ∨ kind = .bytes)
    {json : Json} {v : Value} (h : ofWire key kind json = .ok v) : v.toWire = json := by
  rcases hkind with rfl | rfl
  · obtain ⟨s, hs, rfl⟩ := map_eq_ok_iff.1 h
    exact toWire_of_readString hs
  · obtain ⟨b, hb, rfl⟩ := map_eq_ok_iff.1 h
    exact toWire_of_readBytes hb

/-- Values and wire values come round. Every value is read back from its wire form as its own
kind, whatever key it is read for, with all that is not a number counting as one and the zeros
told apart; so values of one kind have different wire forms. What is read as a text or as a blob
is the wire form of the value that is read, so a blob has no second text. -/
theorem wire_round_trip (key : String) :
    (∀ v : Value, ofWire key v.kind v.toWire = .ok v) ∧
      (∀ a b : Value, a.kind = b.kind → a.toWire = b.toWire → a = b) ∧
      (∀ kind, kind = .string ∨ kind = .bytes → ∀ json v, ofWire key kind json = .ok v →
        v.toWire = json) ∧
      ∀ json json' v, ofWire key .bytes json = .ok v → ofWire key .bytes json' = .ok v →
        json = json' := by
  refine ⟨ofWire_toWire key, ?_, fun _ hkind _ _ => toWire_of_ofWire hkind, ?_⟩
  · intro a b hkind hwire
    have ha := ofWire_toWire key a
    rw [hkind, hwire, ofWire_toWire] at ha
    exact (Except.ok.inj ha).symm
  · intro json json' v h h'
    rw [← toWire_of_ofWire (.inr rfl) h, ← toWire_of_ofWire (.inr rfl) h']

/-- A viewer with numbers that JSON does not have, or has twice. -/
def tilted : Viewer :=
  { Viewer.standard with
    projection := Matrix.identity.set 3 (.infinite true)
    modelview := Matrix.identity.set 7 .nan
    timestamp := Binary.atPlace true 0
    sceneView := "\"side\"" }

theorem wire_round_trip_tilted :
    ofWire "eye" .viewer (toWire (.viewer tilted)) = .ok (.viewer tilted) ∧
      toWire (.float (Binary.atPlace true 0)) ≠ toWire (.float .zero) ∧
      ofWire "blob" .bytes (.string "AP8H") = .ok (.bytes [0, 255, 7]) ∧
      toWire (.bytes [0, 255, 7]) = .string "AP8H" ∧
      ∀ json, ofWire "blob" .bytes json = .ok (.bytes [0, 255, 7]) → json = .string "AP8H" := by
  obtain ⟨hback, -, -, -⟩ := wire_round_trip "eye"
  obtain ⟨-, hinjective, hwritten, hunique⟩ := wire_round_trip "blob"
  have hread : ofWire "blob" .bytes (.string "AP8H") = .ok (.bytes [0, 255, 7]) := by
    with_unfolding_all decide
  refine ⟨hback (.viewer tilted), ?_, hread, hwritten .bytes (.inr rfl) _ _ hread, ?_⟩
  · intro hsame
    have hzero := hinjective (.float (Binary.atPlace true 0)) (.float .zero) rfl hsame
    revert hzero
    decide
  · intro json hjson
    exact hunique json _ _ hjson hread

end Value

end SharedState
