import SharedState.Json.Node
import SharedState.Proofs.Json.Scan

/-!
# Written trees are read back

A tree whose strings denote texts and whose numbers have the form that readers
ask for is read back from its text. There is one walk over the tree for each
half of the reading. `scanFrom_tokens` says that the text of its tokens is
scanned as these tokens: a number inside a tree is followed by a comma or a
closing bracket, never by more of a number. `foldlM_tokens` says that its tokens
take the reader from wanting a value to having read the tree, with the stack of
unfinished arrays and objects as it was; this half holds of every tree.
-/

namespace SharedState.Json

open SharedState.Text

/-! ## From the text to the tokens -/

/-- The text of tokens. -/
def Token.glyphs (tokens : List Token) : List Glyph :=
  (tokens.flatMap Token.write).map .char

theorem Token.glyphs_append (tokens more : List Token) :
    Token.glyphs (tokens ++ more) = Token.glyphs tokens ++ Token.glyphs more := by
  rw [Token.glyphs, List.flatMap_append, List.map_append]
  rfl

variable {before tokens : List Token} {t : Token} {rest : List Glyph}

theorem scanFrom_cons (h : t.Readable (Token.glyphs tokens ++ rest)) :
    scanFrom before (Token.glyphs (t :: tokens) ++ rest) =
      scanFrom (t :: before) (Token.glyphs tokens ++ rest) := by
  rw [Token.glyphs, List.flatMap_cons, List.map_append, List.append_assoc]
  exact scanFrom_write h

theorem scanFrom_last (h : t.Readable rest) :
    scanFrom before (Token.glyphs [t] ++ rest) = scanFrom (t :: before) rest :=
  scanFrom_cons h

theorem endsNumber_glyphs {c : Char} (hwrite : t.write = [c])
    (hc : isDigit c = false ∧ c ≠ '.' ∧ c ≠ 'e' ∧ c ≠ 'E') :
    EndsNumber (Token.glyphs (t :: tokens) ++ rest) := by
  rw [Token.glyphs, List.flatMap_cons, hwrite]
  exact hc

namespace Node

mutual

/-- What the text of a tree can be read back as: its strings denote texts, and
its numbers have the form that readers ask for. -/
def Printable : Node → Prop
  | .null | .bool _ => True
  | .number _ numeral => numeral.Printable
  | .string content => content.isSome = true
  | .array items => PrintableItems items
  | .object members => PrintableMembers members

def PrintableItems : List Node → Prop
  | [] => True
  | item :: rest => item.Printable ∧ PrintableItems rest

def PrintableMembers : List (Option String × Node) → Prop
  | [] => True
  | (key, value) :: rest => key.isSome = true ∧ value.Printable ∧ PrintableMembers rest

end

mutual

theorem scanFrom_tokens {node : Node} (h : node.Printable) {rest : List Glyph}
    (hrest : EndsNumber rest) (before : List Token) :
    scanFrom before (Token.glyphs node.tokens ++ rest) =
      scanFrom (node.tokens.reverse ++ before) rest := by
  cases node with
  | null => exact scanFrom_last (t := .null) trivial
  | bool b => exact scanFrom_last (t := .bool b) trivial
  | number negative numeral => exact scanFrom_last (t := .number negative numeral) ⟨h, hrest⟩
  | string content => exact scanFrom_last (t := .string content) h
  | array items =>
      rw [tokens, List.cons_append, scanFrom_cons (t := .openBracket) trivial, Token.glyphs_append,
        List.append_assoc, scanFrom_itemTokens h (endsNumber_glyphs rfl (by decide)),
        scanFrom_last (t := .closeBracket) trivial]
      simp
  | object members =>
      rw [tokens, List.cons_append, scanFrom_cons (t := .openBrace) trivial, Token.glyphs_append,
        List.append_assoc, scanFrom_memberTokens h (endsNumber_glyphs rfl (by decide)),
        scanFrom_last (t := .closeBrace) trivial]
      simp

theorem scanFrom_itemTokens {items : List Node} (h : PrintableItems items) {rest : List Glyph}
    (hrest : EndsNumber rest) (before : List Token) :
    scanFrom before (Token.glyphs (itemTokens items) ++ rest) =
      scanFrom ((itemTokens items).reverse ++ before) rest := by
  match items, h with
  | [], _ => rfl
  | [item], h => exact scanFrom_tokens h.1 hrest before
  | item :: next :: more, h =>
      rw [itemTokens, Token.glyphs_append, List.append_assoc,
        scanFrom_tokens h.1 (endsNumber_glyphs rfl (by decide)),
        scanFrom_cons (t := .comma) trivial, scanFrom_itemTokens h.2 hrest]
      simp

theorem scanFrom_memberTokens {members : List (Option String × Node)}
    (h : PrintableMembers members) {rest : List Glyph} (hrest : EndsNumber rest)
    (before : List Token) :
    scanFrom before (Token.glyphs (memberTokens members) ++ rest) =
      scanFrom ((memberTokens members).reverse ++ before) rest := by
  match members, h with
  | [], _ => rfl
  | [(key, value)], h =>
      rw [memberTokens, scanFrom_cons (t := .string key) h.1, scanFrom_cons (t := .colon) trivial,
        scanFrom_tokens h.2.1 hrest]
      simp
  | (key, value) :: next :: more, h =>
      rw [memberTokens, List.cons_append, List.cons_append, scanFrom_cons (t := .string key) h.1,
        scanFrom_cons (t := .colon) trivial, Token.glyphs_append, List.append_assoc,
        scanFrom_tokens h.2.1 (endsNumber_glyphs rfl (by decide)),
        scanFrom_cons (t := .comma) trivial, scanFrom_memberTokens h.2.2 hrest]
      simp

end

theorem scan?_tokens {node : Node} (h : node.Printable) :
    Token.scan? (Token.glyphs node.tokens) = some node.tokens := by
  have hscan := scanFrom_tokens h (show EndsNumber [] from trivial) []
  rw [List.append_nil, List.append_nil] at hscan
  rw [Token.scan?, hscan, scanFrom, List.reverse_reverse]

/-! ## From the tokens to the tree -/

/-- The first token of an item does not close the array, so it is read as after
a comma. -/
theorem foldlM_arrayStart (item : Node) (more : List Node) (stack : List Frame)
    (rest : List Token) :
    (itemTokens (item :: more) ++ rest).foldlM advance (.arrayStart stack) =
      (itemTokens (item :: more) ++ rest).foldlM advance (.value (.array [] :: stack)) := by
  cases item <;> cases more <;> rfl

/-- The key of the first member is read as after a comma. -/
theorem foldlM_objectStart (member : Option String × Node) (more : List (Option String × Node))
    (stack : List Frame) (rest : List Token) :
    (memberTokens (member :: more) ++ rest).foldlM advance (.objectStart stack) =
      (memberTokens (member :: more) ++ rest).foldlM advance (.member [] stack) := by
  cases more <;> rfl

mutual

theorem foldlM_tokens (node : Node) (stack : List Frame) (rest : List Token) :
    (node.tokens ++ rest).foldlM advance (.value stack) =
      rest.foldlM advance (.read node stack) := by
  cases node with
  | null | bool | number | string => rfl
  | array items =>
      cases items with
      | nil => rfl
      | cons item more =>
          -- the bracket leaves the reader in a state of its own, in which the array could end
          rw [tokens, List.cons_append, List.cons_append, List.append_assoc]
          show (itemTokens (item :: more) ++ .closeBracket :: rest).foldlM advance
            (.arrayStart stack) = _
          rw [foldlM_arrayStart, foldlM_itemTokens]
          rfl
  | object members =>
      cases members with
      | nil => rfl
      | cons member more =>
          rw [tokens, List.cons_append, List.cons_append, List.append_assoc]
          show (memberTokens (member :: more) ++ .closeBrace :: rest).foldlM advance
            (.objectStart stack) = _
          rw [foldlM_objectStart, foldlM_memberTokens]
          rfl
termination_by sizeOf node

theorem foldlM_itemTokens (item : Node) (more before : List Node) (stack : List Frame)
    (rest : List Token) :
    (itemTokens (item :: more) ++ .closeBracket :: rest).foldlM advance
        (.value (.array before :: stack)) =
      rest.foldlM advance (.read (.array (before.reverse ++ item :: more)) stack) := by
  cases more with
  | nil =>
      rw [itemTokens, foldlM_tokens, ← List.reverse_cons]
      rfl
  | cons next more =>
      rw [itemTokens, List.append_assoc, foldlM_tokens, List.cons_append]
      show (itemTokens (next :: more) ++ .closeBracket :: rest).foldlM advance
        (.value (.array (item :: before) :: stack)) = _
      rw [foldlM_itemTokens, List.reverse_cons, List.append_assoc]
      rfl
termination_by sizeOf (item :: more)

theorem foldlM_memberTokens (member : Option String × Node)
    (more before : List (Option String × Node)) (stack : List Frame) (rest : List Token) :
    (memberTokens (member :: more) ++ .closeBrace :: rest).foldlM advance (.member before stack) =
      rest.foldlM advance (.read (.object (before.reverse ++ member :: more)) stack) := by
  obtain ⟨key, value⟩ := member
  cases more with
  | nil =>
      rw [memberTokens, List.cons_append, List.cons_append]
      show (value.tokens ++ .closeBrace :: rest).foldlM advance
        (.value (.object before key :: stack)) = _
      rw [foldlM_tokens, ← List.reverse_cons]
      rfl
  | cons next more =>
      rw [memberTokens, List.cons_append, List.cons_append, List.cons_append, List.cons_append,
        List.append_assoc, List.cons_append]
      show (value.tokens ++ .comma :: (memberTokens (next :: more) ++ .closeBrace :: rest)).foldlM
        advance (.value (.object before key :: stack)) = _
      rw [foldlM_tokens]
      show (memberTokens (next :: more) ++ .closeBrace :: rest).foldlM advance
        (.member ((key, value) :: before) stack) = _
      rw [foldlM_memberTokens, List.reverse_cons, List.append_assoc]
      rfl
termination_by sizeOf (member :: more)

end

theorem ofTokens?_tokens (node : Node) : ofTokens? node.tokens = some node := by
  have hread := foldlM_tokens node [] []
  rw [List.append_nil] at hread
  rw [ofTokens?, hread]
  rfl

/-- A tree is read back from its text. -/
theorem parse?_write {node : Node} (h : node.Printable) :
    parse? (String.ofList node.write).toUTF8 = some node := by
  rw [parse?, glyphs_toUTF8, String.toList_ofList]
  show (Token.scan? (Token.glyphs node.tokens)).bind ofTokens? = some node
  rw [scan?_tokens h]
  exact ofTokens?_tokens node

end Node

end SharedState.Json
