import SharedState.Proofs.Document.Written
import SharedState.Proofs.Schema.Accepted

/-!
# The documents that can be read

A document can be given in many ways, but there is one way in which it is
written, and what was read is always fit to be written: `Document.exists_parse?_iff`
says which documents there are to be read at all, namely those that are written
with no more levels than a reader goes down. So reading, writing and reading
again gives what the first reading gave, however the bytes were laid out and
however deep they went.
-/

namespace SharedState

open Json

namespace Entry

theorem ofNode?_accepted {d : Nat} {node : Node} {entry : Entry}
    (h : ofNode? d node = some entry) :
    entry.canonical = entry ∧ entry.toNode.depth ≤ d := by
  unfold ofNode? at h
  split at h
  · split at h
    · next key value hkey hvalue =>
      cases h
      rw [canonical, (Json.ofNode?_accepted hvalue).2.1, depth_toNode, Nat.add_le_add_iff_right]
      exact ⟨rfl, depth_le_of_ofNode? hvalue⟩
    · cases h
  · cases h

end Entry

namespace Document

variable {doc : Document}

/-- A section that may be missing was read, or it has the default. -/
theorem eq_or_of_withDefault? {α : Type} {default found : α} {read : Node → Option α}
    {given : Option Node} (h : withDefault? default read given = some found) :
    found = default ∨ ∃ part, read part = some found := by
  cases given with
  | none =>
      cases h
      exact .inl rfl
  | some part => exact .inr ⟨part, h⟩

theorem entries_accepted {d : Nat} {given : Option Node} {state : List Entry}
    (h : withDefault? [] (entries? d) given = some state) :
    ∀ entry ∈ state, entry.canonical = entry ∧ entry.toNode.depth ≤ d := by
  rcases eq_or_of_withDefault? h with rfl | ⟨part, hread⟩
  · exact fun entry he => absurd he List.not_mem_nil
  · obtain ⟨items, -, hread⟩ := Option.bind_eq_some_iff.1 hread
    intro entry he
    obtain ⟨item, -, heq⟩ := exists_of_mem_mapM hread entry he
    exact Entry.ofNode?_accepted heq

theorem layout_accepted {d : Nat} {given : Option Node} {layout : Json}
    (h : withDefault? .null (Json.ofNode? d) given = some layout) :
    layout.canonical = layout ∧ layout.depth ≤ d := by
  rcases eq_or_of_withDefault? h with rfl | ⟨part, hread⟩
  · exact ⟨rfl, Nat.zero_le d⟩
  · exact ⟨(Json.ofNode?_accepted hread).2.1, depth_le_of_ofNode? hread⟩

theorem revision_accepted {given : Option Node} {revision : Nat}
    (h : withDefault? 0 (Node.natural? Text.maxWord) given = some revision) :
    revision ≤ Text.maxWord := by
  rcases eq_or_of_withDefault? h with rfl | ⟨part, hread⟩
  · exact Nat.zero_le _
  · exact Node.natural?_le hread

theorem ofNode?_accepted {d : Nat} {node : Node} (h : ofNode? d node = some doc) :
    doc.Fits ∧ doc.canonical = doc ∧ doc.toNode.depth ≤ d := by
  unfold ofNode? at h
  split at h
  · split at h
    · next revision schema state layout hrevision hschema hstate hlayout =>
      cases h
      have hs : ∀ s ∈ schema, s.Fits ∧ s.canonical = s ∧ s.toNode.depth ≤ _ := fun s hs => by
        obtain ⟨part, -, hread⟩ := Node.exists_of_optional? hschema s hs
        exact Schema.ofNode?_accepted hread
      have he := entries_accepted hstate
      obtain ⟨hcanonical, hdepth⟩ := layout_accepted hlayout
      refine ⟨⟨revision_accepted hrevision, fun s hm => (hs s hm).1⟩, ?_, ?_⟩
      · rw [canonical, hcanonical, Option.map_congr fun s hm => (hs s hm).2.1, Option.map_id',
          List.map_congr_left fun entry hm => (he entry hm).1, List.map_id']
      · exact depth_toNode_le_iff.2
          ⟨fun s hm => (hs s hm).2.2, fun entry hm => (he entry hm).2, hdepth⟩
    · cases h
  · cases h

/-- The document has nothing in it that cannot be written: its numbers are of 64 bits, and
the objects in it have each key once and in order. -/
structure WellFormed (doc : Document) : Prop where
  fits : doc.Fits
  canonical : doc.canonical = doc

theorem WellFormed.parse?_toBytes (h : doc.WellFormed) :
    parse? doc.toBytes = if doc.toNode.depth ≤ maxDepth then some doc else none := by
  rw [Document.parse?_toBytes h.fits, h.canonical]

theorem wellFormed_of_parse? {bytes : ByteArray} (h : parse? bytes = some doc) :
    doc.WellFormed ∧ doc.toNode.depth ≤ maxDepth := by
  obtain ⟨node, -, hread⟩ := Option.bind_eq_some_iff.1 h
  obtain ⟨hfits, hcanonical, hdepth⟩ := ofNode?_accepted hread
  exact ⟨⟨hfits, hcanonical⟩, hdepth⟩

/-- Documents and bytes come round. A well-formed document is read back from its own
bytes if these nest fewer than 128 arrays and objects, and only then. A document that was
read from any bytes, whatever these look like, is well formed and is read back from its
own, which do not nest too deep. -/
theorem codec_round_trip (doc : Document) :
    (doc.WellFormed →
        parse? doc.toBytes = if doc.toNode.depth < 128 then some doc else none) ∧
      ∀ bytes, parse? bytes = some doc →
        doc.WellFormed ∧ doc.toNode.depth < 128 ∧ parse? doc.toBytes = some doc := by
  have hlevels : doc.toNode.depth < 128 ↔ doc.toNode.depth ≤ maxDepth := Nat.lt_succ_iff
  constructor
  · intro hwf
    simp only [hwf.parse?_toBytes, hlevels]
  · intro bytes h
    obtain ⟨hwf, hdepth⟩ := wellFormed_of_parse? h
    exact ⟨hwf, hlevels.2 hdepth, hwf.parse?_toBytes.trans (if_pos hdepth)⟩

/-- A document given in unusual ways: records as arrays, members in another order and some
that mean nothing, a tag after the rest of its shape, and tags by their numbers. -/
def givenOtherwise : Node :=
  let list := .record [("length", Shape.naturalNode 16), ("item", .array [Shape.naturalNode 1]),
    ("type", Shape.naturalNode 5)]
  let shape := .record [("fields", .array [.array [.text "view", list]]),
    ("type", .text "record"), ("size", .array []), ("name", .text "eye")]
  let restriction := .record [("enumeration", .array [.array [.null, Shape.naturalNode 2]])]
  .array [Shape.naturalNode 7,
    .array [.array [.array [.text "cam", shape, restriction]]],
    .array [.array [.text "gain", .null],
      .record [("size", .null), ("value", Shape.naturalNode 3), ("key", .text "gain")]]]

/-- The document that it is. -/
def camera : Document where
  revision := 7
  schema := some ⟨[{
    key := "cam"
    shape := .record "eye" [("view", .list .float 16)]
    restriction := some (.enumeration [.null, .number (.ofInt64 2)])
    label := none }]⟩
  state := [⟨"gain", .null⟩, ⟨"gain", .number (.ofInt64 3)⟩]

theorem codec_round_trip_camera :
    let bytes := (String.ofList givenOtherwise.write).toUTF8
    parse? bytes = some camera ∧ camera.WellFormed ∧
      camera.toNode.write ≠ givenOtherwise.write ∧ parse? camera.toBytes = some camera := by
  intro bytes
  have hread : parse? bytes = some camera := by decide +kernel
  have hwf : camera.WellFormed := by
    refine ⟨?_, by decide +kernel⟩
    simp [Fits, Schema.Fits, Shape.Fits, Shape.FieldsFit, camera, Text.maxWord]
  obtain ⟨hfirst, hsecond⟩ := codec_round_trip camera
  have hback := hfirst hwf
  rw [if_pos (hsecond bytes hread).2.1] at hback
  exact ⟨hread, hwf, by decide +kernel, hback⟩

end Document

end SharedState
