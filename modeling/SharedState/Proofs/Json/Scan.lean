import SharedState.Json.Token
import SharedState.Proofs.Number.Printed

/-!
# Written tokens are scanned back

The text of a token is scanned as that token, whatever follows. Two kinds of
token need something of their own. The escapes of a string are undone character
by character: each is one piece, and the piece denotes the character. A number
ends where its text ends only if the input does not go on with a digit, a point
or an exponent, so a number asks that of the rest; no other token does.

`scanFrom_write` is the statement that trees are built on.
-/

namespace SharedState.Json

open SharedState.Text

/-! ## Strings -/

theorem hexDigit?_hexDigit {n : Nat} (h : n < 16) : hexDigit? (hexDigit n) = some n := by
  have hall : ∀ n < 16, hexDigit? (hexDigit n) = some n := by decide
  exact hall n h

/-- A backslash and one more character that is no `u`. -/
theorem scanPieces_short {c e : Char} (he : e ≠ 'u') (hc : unescape? e = some c)
    (before : List Piece) (rest : List Glyph) :
    scanPieces before (.char '\\' :: .char e :: rest) = scanPieces (.char c :: before) rest := by
  rw [scanPieces.eq_def]
  simp [he, hc]

/-- A backslash, a `u` and four digits, the first two of them zeros. -/
theorem scanPieces_unit {n : Nat} (h : n < 0x20) (before : List Piece) (rest : List Glyph) :
    scanPieces before (.char '\\' :: .char 'u' :: .char '0' :: .char '0' ::
      .char (hexDigit (n / 16)) :: .char (hexDigit (n % 16)) :: rest) =
      scanPieces (.unit n :: before) rest := by
  have hhigh : n / 16 < 16 := by omega
  have hlow : n % 16 < 16 := Nat.mod_lt _ (by decide)
  have hzero : hexDigit? '0' = some 0 := rfl
  have hsum : 0 * 4096 + 0 * 256 + n / 16 * 16 + n % 16 = n := by omega
  have hunit : hexUnit? [.char '0', .char '0', .char (hexDigit (n / 16)),
      .char (hexDigit (n % 16))] = some (n, []) := by
    simp only [hexUnit?, hexDigit?_hexDigit hhigh, hexDigit?_hexDigit hlow, hzero, hsum]
  rw [scanPieces.eq_def]
  simp [hunit]

theorem scanPieces_plain {c : Char} (hquote : c ≠ '"') (hslash : c ≠ '\\')
    (hcontrol : ¬ c.toNat < 0x20) (before : List Piece) (rest : List Glyph) :
    scanPieces before (.char c :: rest) = scanPieces (.char c :: before) rest := by
  rw [scanPieces.eq_def]
  simp only [if_neg hquote, if_neg hslash, if_neg hcontrol]

/-- The escape of a character is one piece, which denotes the character. -/
theorem scanPieces_escape (c : Char) :
    ∃ piece, (∀ before rest, scanPieces before ((escape c).map .char ++ rest) =
        scanPieces (piece :: before) rest) ∧
      ∀ before rest, joinPieces before (piece :: rest) = joinPieces (c :: before) rest := by
  unfold escape
  split_ifs with hquote hslash hb hf hn hr ht hcontrol
  · subst hquote
    exact ⟨.char '"', scanPieces_short (by decide) rfl, fun _ _ => rfl⟩
  · subst hslash
    exact ⟨.char '\\', scanPieces_short (by decide) rfl, fun _ _ => rfl⟩
  · subst hb
    exact ⟨.char '\x08', scanPieces_short (by decide) rfl, fun _ _ => rfl⟩
  · subst hf
    exact ⟨.char '\x0c', scanPieces_short (by decide) rfl, fun _ _ => rfl⟩
  · subst hn
    exact ⟨.char '\n', scanPieces_short (by decide) rfl, fun _ _ => rfl⟩
  · subst hr
    exact ⟨.char '\r', scanPieces_short (by decide) rfl, fun _ _ => rfl⟩
  · subst ht
    exact ⟨.char '\t', scanPieces_short (by decide) rfl, fun _ _ => rfl⟩
  · refine ⟨.unit c.toNat, scanPieces_unit hcontrol, fun before rest => ?_⟩
    rw [joinPieces.eq_def]
    simp only [if_pos (Or.inl (Nat.lt_trans hcontrol (by decide : 0x20 < 0xD800))),
      Char.ofNat_toNat]
  · exact ⟨.char c, scanPieces_plain hquote hslash hcontrol, fun _ _ => rfl⟩

/-- What is scanned of an escaped text denotes the text. -/
theorem scanPieces_escaped (content : List Char) :
    ∃ pieces, (∀ before rest, scanPieces before
        ((content.flatMap escape).map .char ++ .char '"' :: rest) =
          some (before.reverse ++ pieces, rest)) ∧
      ∀ before, joinPieces before pieces = some (before.reverse ++ content) := by
  induction content with
  | nil =>
      refine ⟨[], fun before rest => ?_, fun before => ?_⟩
      · rw [List.append_nil, scanPieces.eq_def]
        rfl
      · rw [List.append_nil]
        rfl
  | cons c content ih =>
      obtain ⟨pieces, hscan, hjoin⟩ := ih
      obtain ⟨piece, hescape, hdenotes⟩ := scanPieces_escape c
      refine ⟨piece :: pieces, fun before rest => ?_, fun before => ?_⟩
      · rw [List.flatMap_cons, List.map_append, List.append_assoc, hescape, hscan,
          List.reverse_cons, List.append_assoc]
        rfl
      · rw [hdenotes, hjoin, List.reverse_cons, List.append_assoc]
        rfl

theorem scanString?_escaped (content : String) (rest : List Glyph) :
    scanString? ((content.toList.flatMap escape).map .char ++ .char '"' :: rest) =
      some (.string (some content), rest) := by
  obtain ⟨pieces, hscan, hjoin⟩ := scanPieces_escaped content.toList
  rw [scanString?, hscan]
  show some (Token.string ((joinPieces [] pieces).map String.ofList), rest) = _
  rw [hjoin]
  show some (Token.string (some (String.ofList content.toList)), rest) = _
  rw [String.ofList_toList]

/-! ## Numbers -/

/-- The input does not go on with a digit. -/
def EndsDigits : List Glyph → Prop
  | .char c :: _ => isDigit c = false
  | _ => True

/-- The input does not go on with anything that could still belong to a number. -/
def EndsNumber : List Glyph → Prop
  | .char c :: _ => isDigit c = false ∧ c ≠ '.' ∧ c ≠ 'e' ∧ c ≠ 'E'
  | _ => True

variable {rest : List Glyph}

theorem EndsNumber.endsDigits (h : EndsNumber rest) : EndsDigits rest := by
  match rest, h with
  | [], _ => exact trivial
  | .stray _ :: _, _ => exact trivial
  | .char _ :: _, h => exact h.1

theorem scanDigits_of_endsDigits (h : EndsDigits rest) : scanDigits rest = ([], rest) := by
  match rest, h with
  | [], _ => rfl
  | .stray _ :: _, _ => rfl
  | .char c :: _, (h : isDigit c = false) => simp [scanDigits, h]

theorem scanDigits_append {digits : List Char} (hdigits : ∀ c ∈ digits, isDigit c = true)
    (h : EndsDigits rest) : scanDigits (digits.map .char ++ rest) = (digits, rest) := by
  induction digits with
  | nil => exact scanDigits_of_endsDigits h
  | cons c digits ih =>
      have htail := ih fun d hd => hdigits d (List.mem_cons_of_mem c hd)
      rw [List.map_cons, List.cons_append, scanDigits, if_pos (hdigits c List.mem_cons_self), htail]

variable {n : Numeral}

theorem scanWhole_append (h : n.Printable) (hrest : EndsDigits rest) :
    scanWhole (n.whole.map .char ++ rest) = (n.whole, rest) := by
  rcases h.leading with hzero | hhead
  · rw [hzero]
    rfl
  · rw [← scanDigits_append h.whole hrest]
    cases hw : n.whole with
    | nil => exact absurd hw h.nonempty
    | cons c digits =>
        have hc : c ≠ '0' := fun heq => hhead (by rw [hw, heq]; rfl)
        rw [List.map_cons, List.cons_append, scanWhole]
        intro rest' heq
        cases heq
        exact hc rfl

/-- The text of the digits after the point. -/
def fractionText (digits : List Char) : List Char :=
  if digits.isEmpty then [] else '.' :: digits

/-- The text of an exponent with its sign. -/
def exponentText : Option Int → List Char
  | none => []
  | some e => 'e' :: (if e < 0 then ['-'] else ['+']) ++ toDigits e.natAbs

theorem write_eq (n : Numeral) :
    n.write true = n.whole ++ (fractionText n.fraction ++ exponentText n.exponent) := by
  rw [← List.append_assoc]
  rfl

theorem scanExponent?_append (exponent : Option Int) (h : EndsNumber rest) :
    scanExponent? ((exponentText exponent).map .char ++ rest) = some (exponent, rest) := by
  cases exponent with
  | none =>
      match rest, h with
      | [], _ => rfl
      | .stray _ :: _, _ => rfl
      | .char c :: _, h => simp [exponentText, scanExponent?, h.2.2.1, h.2.2.2]
  | some e =>
      obtain ⟨c, digits, hcons⟩ := List.exists_cons_of_ne_nil (toDigits_ne_nil e.natAbs)
      have hvalue : ofDigits 0 (c :: digits) = e.natAbs := hcons ▸ ofDigits_toDigits _
      have hdigits : scanDigits ((toDigits e.natAbs).map .char ++ rest) = (c :: digits, rest) := by
        rw [scanDigits_append (fun _ hc => isDigit_of_mem_toDigits hc) h.endsDigits, hcons]
      have hsign : scanSign ((if e < 0 then ['-'] else ['+']).map .char ++
          ((toDigits e.natAbs).map .char ++ rest)) =
          (decide (e < 0), (toDigits e.natAbs).map .char ++ rest) := by
        split
        · next hneg => simp [scanSign, hneg]
        · next hpos => simp [scanSign, hpos]
      have habs : (if decide (e < 0) = true then -(e.natAbs : Int) else e.natAbs) = e := by
        rcases Int.lt_or_le e 0 with hneg | hpos
        · rw [decide_eq_true hneg, if_pos rfl]
          omega
        · rw [decide_eq_false (Int.not_lt.2 hpos), if_neg Bool.false_ne_true]
          omega
      rw [exponentText, List.cons_append, List.map_cons, List.cons_append, List.map_append,
        List.append_assoc, scanExponent?, if_pos (.inl rfl), hsign]
      simp only [hdigits, hvalue, habs]

theorem scanFraction?_append {digits : List Char} (hdigits : ∀ c ∈ digits, isDigit c = true)
    (hrest : EndsDigits rest) (hpoint : ∀ rest', rest ≠ .char '.' :: rest') :
    scanFraction? ((fractionText digits).map .char ++ rest) = some (digits, rest) := by
  cases digits with
  | nil =>
      show scanFraction? rest = _
      rw [scanFraction?]
      exact hpoint
  | cons c digits =>
      have hscan := scanDigits_append hdigits hrest
      show scanFraction? (.char '.' :: ((c :: digits).map .char ++ rest)) = _
      rw [scanFraction?, hscan]

/-- What follows the digits of a number in its text belongs to none of them. -/
theorem endsDigits_exponentText (exponent : Option Int) (h : EndsNumber rest) :
    EndsDigits ((exponentText exponent).map .char ++ rest) ∧
      ∀ rest', (exponentText exponent).map .char ++ rest ≠ .char '.' :: rest' := by
  cases exponent with
  | none =>
      refine ⟨h.endsDigits, fun rest' heq => ?_⟩
      rw [show rest = .char '.' :: rest' from heq] at h
      exact h.2.1 rfl
  | some e => exact ⟨rfl, fun rest' heq => by cases heq⟩

theorem endsDigits_fractionText (digits : List Char) (h : EndsDigits rest) :
    EndsDigits ((fractionText digits).map .char ++ rest) := by
  cases digits with
  | nil => exact h
  | cons c digits => exact rfl

theorem scanNumber?_write (negative : Bool) (h : n.Printable) (hrest : EndsNumber rest) :
    scanNumber? negative ((n.write true).map .char ++ rest) =
      some (.number negative n, rest) := by
  obtain ⟨hexponent, hpoint⟩ := endsDigits_exponentText n.exponent hrest
  have hwhole := scanWhole_append h (endsDigits_fractionText n.fraction hexponent)
  have hfraction := scanFraction?_append h.fraction hexponent hpoint
  have htail := scanExponent?_append n.exponent hrest
  obtain ⟨c, digits, hcons⟩ := List.exists_cons_of_ne_nil h.nonempty
  rw [write_eq, List.map_append, List.append_assoc, List.map_append, List.append_assoc,
    scanNumber?, hwhole, hcons]
  simp only [hfraction, htail, ← hcons]

/-! ## Tokens -/

/-- The token is the one that its text before the rest is scanned as. -/
def Token.Readable (rest : List Glyph) : Token → Prop
  | .number _ numeral => numeral.Printable ∧ EndsNumber rest
  | .string content => content.isSome = true
  | _ => True

/-- A digit starts nothing but a number. -/
theorem nextFrom?_digit {c : Char} (hc : isDigit c = true) :
    nextFrom? c rest = scanNumber? false (.char c :: rest) := by
  have hne : ∀ d, isDigit d = false → c ≠ d := fun d hd heq => by
    rw [heq, hd] at hc
    cases hc
  simp [nextFrom?, punctuation?, word?, hne '{' rfl, hne '}' rfl, hne '[' rfl, hne ']' rfl,
    hne ',' rfl, hne ':' rfl, hne 'n' rfl, hne 't' rfl, hne 'f' rfl, hne '"' rfl, hne '-' rfl]

theorem isBlank_digit {c : Char} (hc : isDigit c = true) : isBlank c = false := by
  have hne : ∀ d, isDigit d = false → (c == d) = false := fun d hd => by
    rw [beq_eq_false_iff_ne]
    rintro rfl
    rw [hd] at hc
    cases hc
  simp [isBlank, hne ' ' rfl, hne '\n' rfl, hne '\t' rfl, hne '\r' rfl]

theorem nextFrom?_write {t : Token} (h : t.Readable rest) :
    ∃ c text, t.write = c :: text ∧ isBlank c = false ∧
      nextFrom? c (text.map .char ++ rest) = some (t, rest) := by
  cases t with
  | openBrace | closeBrace | openBracket | closeBracket | comma | colon | null =>
      exact ⟨_, _, rfl, rfl, rfl⟩
  | bool value => cases value <;> exact ⟨_, _, rfl, rfl, rfl⟩
  | number negative numeral =>
      obtain ⟨hprintable, hrest⟩ := h
      have hscan := scanNumber?_write negative hprintable hrest
      cases negative with
      | true => exact ⟨'-', _, rfl, rfl, hscan⟩
      | false =>
          obtain ⟨c, digits, hcons⟩ := List.exists_cons_of_ne_nil hprintable.nonempty
          have hc : isDigit c = true := hprintable.whole c (hcons ▸ List.mem_cons_self)
          rw [write_eq, hcons] at hscan
          refine ⟨c, digits ++ (fractionText numeral.fraction ++ exponentText numeral.exponent),
            ?_, isBlank_digit hc, (nextFrom?_digit hc).trans hscan⟩
          show numeral.write true = _
          rw [write_eq, hcons]
          rfl
  | string content =>
      obtain ⟨content, rfl⟩ := Option.isSome_iff_exists.1 h
      refine ⟨'"', content.toList.flatMap escape ++ ['"'], rfl, rfl, ?_⟩
      rw [List.map_append, List.append_assoc]
      exact scanString?_escaped content rest

theorem scanFrom_of_nextFrom? {c : Char} {input : List Glyph} {before : List Token} {t : Token}
    (hc : isBlank c = false) (h : nextFrom? c input = some (t, rest)) :
    scanFrom before (.char c :: input) = scanFrom (t :: before) rest := by
  rw [scanFrom, if_neg (by rw [hc]; decide)]
  split
  · next hnone =>
      rw [h] at hnone
      cases hnone
  · next hsome =>
      rw [h] at hsome
      cases hsome
      rfl

/-- The text of a token is scanned as the token. -/
theorem scanFrom_write {before : List Token} {t : Token} (h : t.Readable rest) :
    scanFrom before (t.write.map .char ++ rest) = scanFrom (t :: before) rest := by
  obtain ⟨c, text, hwrite, hc, hnext⟩ := nextFrom?_write h
  rw [hwrite, List.map_cons, List.cons_append]
  exact scanFrom_of_nextFrom? hc hnext

end SharedState.Json
