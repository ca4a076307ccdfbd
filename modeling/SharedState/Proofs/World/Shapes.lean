import SharedState.Proofs.Json.Canonical
import SharedState.Proofs.Value.Wire
import SharedState.Proofs.World.Restoration

/-!
# Shapes describe wire values

A shape says which JSON values it stands for: `Shape.describes`, by recursion on
the shape. What is written for a value is one of those that the shape of its
kind stands for, and each of those, whoever wrote it, is read as a value of that
kind. So the shapes that a document publishes are true of the values it carries.

The shapes, the writers and the readers name the fields of a viewer on their
own. They meet in two places here, in `describes_toWire` for the writers and in
`readViewer_of_describes` for the readers.
-/

namespace SharedState

namespace Shape

mutual

/-- The JSON value is one that the shape stands for. -/
def describes : Shape → Json → Bool
  | .integer, .number (.integer value _) => -(1 <<< 63 : Nat) ≤ value ∧ value < (1 <<< 63 : Nat)
  | .float, .number _ => true
  | .float, .string s => s = "NaN" ∨ s = "inf" ∨ s = "-inf"
  | .boolean, .bool _ => true
  | .string, .string _ => true
  | .bytes, .string s => Base64.isCanonical s.toUTF8.toList
  | .list item length, .array items => items.length = length && items.all item.describes
  | .record _ fields, .object members =>
    (members.map (·.1)).isPerm (fields.map (·.1)) && describesFields fields members
  | _, _ => false

/-- For each field there is a member that its shape stands for. -/
def describesFields : List (String × Shape) → List (String × Json) → Bool
  | [], _ => true
  | (name, shape) :: rest, members =>
    (Json.member? name members).any shape.describes && describesFields rest members

end

variable {json : Json}

theorem describes_integer_iff : integer.describes json = true ↔
    ∃ n i, json = .number n ∧ n.toInt64? = some i := by
  constructor
  · intro h
    cases json with
    | number n =>
        cases n with
        | integer value fits =>
            have hfits := of_decide_eq_true h
            exact ⟨_, .ofInt value, rfl, if_pos hfits⟩
        | float => cases h
    | _ => cases h
  · rintro ⟨n, i, rfl, hn⟩
    cases n with
    | integer value fits =>
        have hfits := (Option.ite_none_right_eq_some.1 hn).1
        exact decide_eq_true hfits
    | float => cases hn

theorem describes_float_iff : float.describes json = true ↔
    (∃ n, json = .number n) ∨ ∃ s ∈ ["NaN", "inf", "-inf"], json = .string s := by
  constructor
  · intro h
    cases json with
    | number n => exact .inl ⟨n, rfl⟩
    | string s =>
        have hs : s = "NaN" ∨ s = "inf" ∨ s = "-inf" := of_decide_eq_true h
        exact .inr ⟨s, by simpa using hs, rfl⟩
    | _ => cases h
  · rintro (⟨n, rfl⟩ | ⟨s, hs, rfl⟩)
    · rfl
    · exact decide_eq_true (by simpa using hs)

theorem describes_list_iff {item : Shape} {length : Nat} :
    (list item length).describes json = true ↔
      ∃ items, json = .array items ∧ items.length = length ∧
        ∀ found ∈ items, item.describes found = true := by
  constructor
  · intro h
    cases json with
    | array items =>
        obtain ⟨hlength, hall⟩ := Bool.and_eq_true_iff.1 h
        exact ⟨items, rfl, of_decide_eq_true hlength, List.all_eq_true.1 hall⟩
    | _ => cases h
  · rintro ⟨items, rfl, hlength, hall⟩
    exact Bool.and_eq_true_iff.2 ⟨decide_eq_true hlength, List.all_eq_true.2 hall⟩

theorem describesFields_iff {fields : List (String × Shape)} {members : List (String × Json)} :
    describesFields fields members = true ↔ ∀ field ∈ fields,
      ∃ value, Json.member? field.1 members = some value ∧ field.2.describes value = true := by
  induction fields with
  | nil => simp [describesFields]
  | cons field rest ih =>
      obtain ⟨name, shape⟩ := field
      simp only [describesFields, Bool.and_eq_true, ih, List.forall_mem_cons, Option.any_eq_true]

theorem describes_record_iff {name : String} {fields : List (String × Shape)} :
    (record name fields).describes json = true ↔
      ∃ members, json = .object members ∧ (members.map (·.1)).Perm (fields.map (·.1)) ∧
        ∀ field ∈ fields, ∃ value,
          Json.member? field.1 members = some value ∧ field.2.describes value = true := by
  constructor
  · intro h
    cases json with
    | object members =>
        obtain ⟨hkeys, hfields⟩ := Bool.and_eq_true_iff.1 h
        exact ⟨members, rfl, List.isPerm_iff.1 hkeys, describesFields_iff.1 hfields⟩
    | _ => cases h
  · rintro ⟨members, rfl, hkeys, hfields⟩
    exact Bool.and_eq_true_iff.2 ⟨List.isPerm_iff.2 hkeys, describesFields_iff.2 hfields⟩

theorem describes_boolean_iff : boolean.describes json = true ↔ ∃ b, json = .bool b := by
  constructor
  · intro h
    cases json with
    | bool b => exact ⟨b, rfl⟩
    | _ => cases h
  · rintro ⟨b, rfl⟩
    rfl

theorem describes_string_iff : string.describes json = true ↔ ∃ s, json = .string s := by
  constructor
  · intro h
    cases json with
    | string s => exact ⟨s, rfl⟩
    | _ => cases h
  · rintro ⟨s, rfl⟩
    rfl

/-- An object that is made from a member for each field. -/
theorem describes_ofMembers {name : String} {fields : List (String × Shape)}
    {members : List (String × Json)} (hfields : (fields.map (·.1)).Nodup)
    (h : List.Forall₂ (fun field member => field.1 = member.1 ∧ field.2.describes member.2 = true)
      fields members) : (record name fields).describes (.ofMembers members) = true := by
  have hmatch : members.map (·.1) = fields.map (·.1) ∧ ∀ field ∈ fields, ∃ member ∈ members,
      member.1 = field.1 ∧ field.2.describes member.2 = true := by
    clear hfields
    induction h with
    | nil => exact ⟨rfl, nofun⟩
    | @cons field member fields members hhead _ ih =>
        obtain ⟨hkeys, hvalues⟩ := ih
        refine ⟨by rw [List.map_cons, List.map_cons, hkeys, hhead.1], ?_⟩
        refine List.forall_mem_cons.2 ⟨⟨member, List.mem_cons_self, hhead.1.symm, hhead.2⟩, ?_⟩
        intro other hother
        obtain ⟨found, hfound, heq⟩ := hvalues other hother
        exact ⟨found, List.mem_cons_of_mem _ hfound, heq⟩
  obtain ⟨hkeys, hvalues⟩ := hmatch
  obtain ⟨found, heq, hperm, hlookup⟩ := Json.ofMembers_of_nodup (hkeys ▸ hfields)
  refine describes_record_iff.2 ⟨found, heq, hkeys ▸ hperm.map (·.1), ?_⟩
  intro field hfield
  obtain ⟨member, hmember, hname, hshape⟩ := hvalues field hfield
  exact ⟨member.2, hname ▸ hlookup member hmember, hshape⟩

/-! ## What is written -/

open Value

theorem describes_ofInt64 (i : Int64) : integer.describes (.number (.ofInt64 i)) = true :=
  decide_eq_true ⟨i.le_toInt, i.toInt_lt⟩

theorem describes_floatWire (x : Double) : float.describes (floatWire x) = true := by
  unfold floatWire Json.Number.ofDouble?
  by_cases h : x.isFinite = true
  · rw [dif_pos h]
    rfl
  · rw [dif_neg h]
    rcases eq_of_not_finite h with rfl | rfl | rfl <;> decide

theorem describes_matrixWire (m : Matrix) : matrix.describes (matrixWire m) = true := by
  refine describes_list_iff.2 ⟨_, rfl, ?_, ?_⟩
  · rw [List.length_map, m.length_toList]
  · intro item hitem
    obtain ⟨x, -, rfl⟩ := List.mem_map.1 hitem
    exact describes_floatWire x.widen

/-- What is written for a value is of the shape of its kind. -/
theorem describes_toWire (v : Value) : (ofKind v.kind).describes v.toWire = true := by
  cases v with
  | integer i => exact describes_ofInt64 i
  | float x => exact describes_floatWire x
  | boolean b => rfl
  | string s => rfl
  | bytes b =>
      show Base64.isCanonical (String.ofList ((Base64.encode b).map charOf)).toUTF8.toList = true
      rw [toUTF8_charOf (Base64.encode_lt b)]
      exact Base64.isCanonical_encode b
  | matrix m => exact describes_matrixWire m
  | viewer v =>
      refine describes_ofMembers (by decide) ?_
      exact .cons ⟨rfl, describes_ofInt64 v.width⟩ <| .cons ⟨rfl, describes_ofInt64 v.height⟩ <|
        .cons ⟨rfl, describes_matrixWire v.projection⟩ <|
        .cons ⟨rfl, describes_matrixWire v.modelview⟩ <|
        .cons ⟨rfl, describes_floatWire v.timestamp⟩ <| .cons ⟨rfl, rfl⟩ .nil

/-! ## What is read -/

theorem readInteger_of_describes (key : String) (h : integer.describes json = true) :
    ∃ i, readInteger key json = .ok i := by
  obtain ⟨n, i, rfl, hn⟩ := describes_integer_iff.1 h
  exact ⟨i, by simp only [readInteger, hn]⟩

theorem readFloat_of_describes (key : String) (h : float.describes json = true) :
    ∃ x, readFloat key json = .ok x := by
  rcases describes_float_iff.1 h with ⟨n, rfl⟩ | ⟨s, hs, rfl⟩
  · exact ⟨n.toDouble, rfl⟩
  · have hnames : ∀ s ∈ ["NaN", "inf", "-inf"],
        (Binary.read? (Text.trim s.toList) : Option Double).isSome = true := by
      decide
    obtain ⟨x, hx⟩ := Option.isSome_iff_exists.1 (hnames s hs)
    exact ⟨x, by simp only [readFloat, hx]⟩

theorem readMatrix_of_describes (key : String) (h : matrix.describes json = true) :
    ∃ m, readMatrix key json = .ok m := by
  obtain ⟨items, rfl, hlength, hitems⟩ := describes_list_iff.1 h
  have hread : ∀ item ∈ items, ∃ x, (readFloat key item).map Binary.narrow = .ok x := by
    intro item hitem
    obtain ⟨x, hx⟩ := readFloat_of_describes key (hitems item hitem)
    exact ⟨x.narrow, map_eq_ok_iff.2 ⟨x, hx, rfl⟩⟩
  obtain ⟨components, hcomponents, hcount⟩ := mapM_eq_ok hread
  have hsize : components.length = matrixSize := hcount.trans hlength
  refine ⟨⟨components.toArray, by simpa using hsize⟩, ?_⟩
  simp only [readMatrix, hcomponents, bind, Except.bind, if_pos hsize, Matrix.ofComponents,
    Matrix.ofList?, dif_pos hsize]

theorem readBytes_of_describes (key : String) (h : bytes.describes json = true) :
    ∃ b, readBytes key json = .ok b := by
  cases json with
  | string s =>
      have hform : Base64.isCanonical s.toUTF8.toList = true := h
      obtain ⟨b, hb⟩ := Base64.exists_encode_of_isCanonical hform
      exact ⟨b, by simp only [readBytes, ← hb, Base64.decode_encode]⟩
  | _ => simp [describes] at h

theorem readViewer_of_describes (key : String) (h : (ofKind .viewer).describes json = true) :
    ∃ v, readViewer key json = .ok v := by
  obtain ⟨members, rfl, -, hfields⟩ := describes_record_iff.1 h
  simp only [List.forall_mem_cons] at hfields
  obtain ⟨⟨w, hw, hwidth⟩, ⟨h, hh, hheight⟩, ⟨p, hp, hprojection⟩, ⟨m, hm, hmodelview⟩,
    ⟨t, ht, htimestamp⟩, ⟨s, hs, hsceneView⟩, -⟩ := hfields
  obtain ⟨width, hwidth⟩ := readInteger_of_describes key hwidth
  obtain ⟨height, hheight⟩ := readInteger_of_describes key hheight
  obtain ⟨projection, hprojection⟩ := readMatrix_of_describes key hprojection
  obtain ⟨modelview, hmodelview⟩ := readMatrix_of_describes key hmodelview
  obtain ⟨timestamp, htimestamp⟩ := readFloat_of_describes key htimestamp
  obtain ⟨sceneView, rfl⟩ := describes_string_iff.1 hsceneView
  refine ⟨⟨width, height, projection, modelview, timestamp, sceneView⟩, ?_⟩
  simp only [readViewer, viewerField, hw, hh, hp, hm, ht, hs, hwidth, hheight, hprojection,
    hmodelview, htimestamp, bind, Except.bind]

/-- What is of the shape of a kind is read as a value of that kind. -/
theorem ofWire_of_describes (key : String) (kind : Kind) {json : Json}
    (h : (ofKind kind).describes json = true) :
    ∃ v, ofWire key kind json = .ok v ∧ v.kind = kind := by
  have hread : ∃ v, ofWire key kind json = .ok v := by
    have hmap : ∀ {α : Type} {x : Except Error α} (f : α → Value), (∃ a, x = .ok a) →
        ∃ v, x.map f = .ok v := fun f ⟨a, ha⟩ => ⟨f a, map_eq_ok_iff.2 ⟨a, ha, rfl⟩⟩
    cases kind with
    | integer => exact hmap .integer (readInteger_of_describes key h)
    | float => exact hmap .float (readFloat_of_describes key h)
    | boolean =>
        obtain ⟨b, rfl⟩ := describes_boolean_iff.1 h
        exact ⟨.boolean b, rfl⟩
    | string =>
        obtain ⟨s, rfl⟩ := describes_string_iff.1 h
        exact ⟨.string s, rfl⟩
    | bytes => exact hmap .bytes (readBytes_of_describes key h)
    | matrix => exact hmap .matrix (readMatrix_of_describes key h)
    | viewer => exact hmap .viewer (readViewer_of_describes key h)
  obtain ⟨v, hv⟩ := hread
  exact ⟨v, hv, kind_of_ofWire hv⟩

end Shape

namespace World

variable {n : Nat} {m : Fin n} {w : World n}

/-! ## What is published -/

/-- The schema of a document that a model answers with lists every key that the document carries,
with a shape that its value is of. -/
theorem describes_of_document (hr : Reachable m w) {depth : Nat} {op : Operation (Listener n)}
    {doc : Document} (h : (perform depth w (m, op)).2 = .ok (.document doc)) :
    ∃ schema, doc.schema = some schema ∧ ∀ entry ∈ doc.state,
      (∃ described ∈ schema.elements, described.key = entry.key) ∧
        ∀ described ∈ schema.elements, described.key = entry.key →
          described.shape.describes entry.value = true := by
  obtain ⟨wanted, rfl⟩ := document_of_perform h
  refine ⟨_, rfl, fun entry hentry => ?_⟩
  obtain ⟨e, hx, -, hvalue⟩ := hr.sound.mem_state_iff.1 hentry
  obtain ⟨-, -, hkey⟩ := hr.sound.exposed?_eq_some_iff.1 hx
  have hlisted : .describe e ∈ w[m].store.schema.elements :=
    hr.sound.mem_schema_iff.2 ⟨e, (congrArg _ hkey).trans hx, rfl⟩
  refine ⟨⟨.describe e, hlisted, hkey⟩, ?_⟩
  intro described hdescribed hsame
  obtain ⟨e', hx', rfl⟩ := hr.sound.mem_schema_iff.1 hdescribed
  rw [hsame, hx] at hx'
  cases hx'
  rw [hvalue]
  exact Shape.describes_toWire e.value

/-- What is written for a value is of the shape of its kind, and what is of the shape of a kind,
whoever wrote it, is read as a value of that kind. So every value in a document that a model
answers with is of the shape that the document itself declares for its key. -/
theorem shapes_describe_values :
    (∀ v : Value, (Shape.ofKind v.kind).describes v.toWire = true) ∧
      (∀ key kind json, (Shape.ofKind kind).describes json = true →
        ∃ v, Value.ofWire key kind json = .ok v ∧ v.kind = kind) ∧
      ∀ {n : Nat} {m : Fin n} {w : World n}, Reachable m w →
        ∀ depth op doc, (perform depth w (m, op)).2 = .ok (.document doc) →
          ∃ schema, doc.schema = some schema ∧ ∀ entry ∈ doc.state,
            (∃ described ∈ schema.elements, described.key = entry.key) ∧
              ∀ described ∈ schema.elements, described.key = entry.key →
                described.shape.describes entry.value = true :=
  ⟨Shape.describes_toWire, fun key kind _ => Shape.ofWire_of_describes key kind,
    fun hr _ _ _ => describes_of_document hr⟩

theorem shapes_describe_values_origin :
    let doc := origin[(0 : Fin 1)].store.fullDocument
    let mixed : Json :=
      .array (.string "NaN" :: .string "-inf" :: List.replicate 14 (.number (.ofInt64 2)))
    (Shape.ofKind .viewer).describes (Value.toWire (.viewer Value.tilted)) = true ∧
      (∃ v, Value.ofWire "eye" .matrix mixed = .ok v ∧ v.kind = .matrix) ∧
      (⟨"level", .string "-inf"⟩ : Entry) ∈ doc.state ∧
      ∃ schema, doc.schema = some schema ∧ ∀ entry ∈ doc.state,
        ∃ described ∈ schema.elements, described.key = entry.key ∧
          described.shape.describes entry.value = true := by
  intro doc mixed
  have hfree : (0 : Fin 1) ∉ origin.dispatching := free_alone _
  have hdoc : (perform 2 origin (0, .full)).2 = .ok (.document doc) := by
    rw [perform, answer_of_free hfree]
    rfl
  have hlevel : origin[(0 : Fin 1)].store.exposed? "level" =
      some ⟨"level", .float (.infinite true), .unconstrained, none, 2, true⟩ := by
    with_unfolding_all decide
  have hmixed : (Shape.ofKind .matrix).describes mixed = true := by decide
  obtain ⟨hwritten, hread, hpublished⟩ := shapes_describe_values
  obtain ⟨schema, hschema, hentries⟩ := hpublished (reachable_alone _) 2 .full doc hdoc
  refine ⟨hwritten (.viewer Value.tilted), hread "eye" .matrix mixed hmixed,
    (reachable_alone _).sound.mem_state_iff.2 ⟨_, hlevel, rfl, rfl⟩, schema, hschema,
    fun entry hentry => ?_⟩
  obtain ⟨⟨described, hmem, hkey⟩, hshapes⟩ := hentries entry hentry
  exact ⟨described, hmem, hkey, hshapes described hmem hkey⟩

end World

end SharedState
