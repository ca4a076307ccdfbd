/-!
# Parts of a text by their place in bytes

A place in a text is the number of bytes before it. Cutting is possible between characters only.
-/

namespace SharedState.Text

def byteSize : List Char → Nat
  | [] => 0
  | c :: rest => c.utf8Size + byteSize rest

/-- Cuts a text at a place, if the place lies in it and between characters. -/
def splitAt? : Nat → List Char → Option (List Char × List Char)
  | 0, text => some ([], text)
  | _ + 1, [] => none
  | size + 1, c :: rest =>
    if c.utf8Size ≤ size + 1 then
      (splitAt? (size + 1 - c.utf8Size) rest).map fun (before, after) => (c :: before, after)
    else none

/-- The part of a text from one place up to another. -/
def slice? (start stop : Nat) (text : List Char) : Option (List Char) := do
  let (_, after) ← splitAt? start text
  let (part, _) ← splitAt? (stop - start) after
  return part

/-- Cutting a text loses nothing. -/
theorem append_of_splitAt? {size : Nat} {text before after : List Char}
    (h : splitAt? size text = some (before, after)) : before ++ after = text := by
  fun_induction splitAt? size text generalizing before after with
  | case1 text => simp_all
  | case2 => contradiction
  | case3 size c rest _ ih =>
    obtain ⟨p, hp, hq⟩ := Option.map_eq_some_iff.1 h
    simp only [Prod.mk.injEq] at hq
    rw [← hq.1, ← hq.2, List.cons_append, ih hp]
  | case4 => contradiction

/-- The first part has the size that is asked for. -/
theorem byteSize_of_splitAt? {size : Nat} {text before after : List Char}
    (h : splitAt? size text = some (before, after)) : byteSize before = size := by
  fun_induction splitAt? size text generalizing before after with
  | case1 text => simp_all [byteSize]
  | case2 => contradiction
  | case3 size c rest _ ih =>
    obtain ⟨p, hp, hq⟩ := Option.map_eq_some_iff.1 h
    simp only [Prod.mk.injEq] at hq
    have hsum := ih hp
    rw [← hq.1, byteSize, hsum]
    omega
  | case4 => contradiction

/-- A text can be cut between any two of its characters. -/
theorem splitAt?_byteSize (before after : List Char) :
    splitAt? (byteSize before) (before ++ after) = some (before, after) := by
  induction before with
  | nil => simp [byteSize, splitAt?]
  | cons c rest ih =>
    have hpos := c.utf8Size_pos
    have hsize : byteSize (c :: rest) = (c.utf8Size + byteSize rest - 1) + 1 := by
      rw [byteSize]
      omega
    have hle : c.utf8Size ≤ c.utf8Size + byteSize rest - 1 + 1 := by omega
    have hrest : c.utf8Size + byteSize rest - 1 + 1 - c.utf8Size = byteSize rest := by omega
    rw [hsize, List.cons_append, splitAt?, if_pos hle, hrest, ih]
    rfl

/-- The parts of a cut are the two parts of the text with the place between them. -/
theorem splitAt?_eq_some_iff {size : Nat} {text before after : List Char} :
    splitAt? size text = some (before, after) ↔ before ++ after = text ∧ byteSize before = size :=
  ⟨fun h => ⟨append_of_splitAt? h, byteSize_of_splitAt? h⟩,
    fun ⟨htext, hsize⟩ => htext ▸ hsize ▸ splitAt?_byteSize before after⟩

end SharedState.Text
