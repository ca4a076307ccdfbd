import SharedState.Number.Decimal
import SharedState.Text.Utf8

/-!
# JSON tokens

The tokens of JSON text, their reading and their writing. A string token holds the text that it
denotes, if it denotes one: an escape that is half of a surrogate pair, or a byte that is no
character, makes a string that can be skipped but not read. Numbers keep their digits, so that a
number too large for any value can be skipped as well.

Writing is compact: no blanks, and an escape only where JSON asks for one.
-/

namespace SharedState.Json

open SharedState.Text

/-- A token of JSON text. -/
inductive Token
  | openBrace
  | closeBrace
  | openBracket
  | closeBracket
  | comma
  | colon
  | null
  | bool (value : Bool)
  | number (negative : Bool) (numeral : Numeral)
  | string (content : Option String)
deriving DecidableEq

/-! ## Strings -/

/-- A part of a string: a character, one unit of an escape with four hexadecimal digits, or a byte
that is no character. -/
inductive Piece
  | char (c : Char)
  | unit (n : Nat)
  | stray
deriving DecidableEq

def hexDigit? (c : Char) : Option Nat :=
  if '0' ≤ c ∧ c ≤ '9' then some (c.toNat - '0'.toNat)
  else if 'a' ≤ c ∧ c ≤ 'f' then some (c.toNat - 'a'.toNat + 10)
  else if 'A' ≤ c ∧ c ≤ 'F' then some (c.toNat - 'A'.toNat + 10)
  else none

/-- The number that four hexadecimal digits denote. -/
def hexUnit? : List Glyph → Option (Nat × List Glyph)
  | .char a :: .char b :: .char c :: .char d :: rest =>
    match hexDigit? a, hexDigit? b, hexDigit? c, hexDigit? d with
    | some a, some b, some c, some d => some (a * 4096 + b * 256 + c * 16 + d, rest)
    | _, _, _, _ => none
  | _ => none

/-- The character that a backslash and one more character stand for. -/
def unescape? (c : Char) : Option Char :=
  if c = '"' ∨ c = '\\' ∨ c = '/' then some c
  else if c = 'b' then some '\x08'
  else if c = 'f' then some '\x0c'
  else if c = 'n' then some '\n'
  else if c = 'r' then some '\r'
  else if c = 't' then some '\t'
  else none

/-- The pieces up to the closing quote, and what follows it. The pieces before are given last first.
-/
def scanPieces (before : List Piece) : List Glyph → Option (List Piece × List Glyph)
  | [] => none
  | .stray _ :: rest => scanPieces (.stray :: before) rest
  | .char c :: rest =>
    if c = '"' then some (before.reverse, rest)
    else if c = '\\' then
      match rest with
      | .char e :: rest =>
        if e = 'u' then
          match rest with
          | a :: b :: c :: d :: rest =>
            match hexUnit? [a, b, c, d] with
            | some (n, _) => scanPieces (.unit n :: before) rest
            | none => none
          | _ => none
        else
          match unescape? e with
          | some c => scanPieces (.char c :: before) rest
          | none => none
      | _ => none
    else if c.toNat < 0x20 then none
    else scanPieces (.char c :: before) rest

/-- The characters that pieces denote, given the characters before them last first. Two units of a
surrogate pair denote one character; any other surrogate denotes none. -/
def joinPieces (before : List Char) : List Piece → Option (List Char)
  | [] => some before.reverse
  | .char c :: rest => joinPieces (c :: before) rest
  | .stray :: _ => none
  | .unit n :: rest =>
    if n < 0xD800 ∨ 0xDFFF < n then joinPieces (Char.ofNat n :: before) rest
    else
      match rest with
      | .unit low :: rest =>
        if n ≤ 0xDBFF ∧ 0xDC00 ≤ low ∧ low ≤ 0xDFFF then
          joinPieces (Char.ofNat (0x10000 + (n - 0xD800) * 0x400 + (low - 0xDC00)) :: before) rest
        else none
      | _ => none

/-- A string after its opening quote: its content, and what follows. -/
def scanString? (input : List Glyph) : Option (Token × List Glyph) :=
  (scanPieces [] input).map fun (pieces, rest) =>
    (.string ((joinPieces [] pieces).map String.ofList), rest)

/-! ## Numbers -/

/-- The digits at the start of the input, and what follows them. -/
def scanDigits : List Glyph → List Char × List Glyph
  | .char c :: rest =>
    if isDigit c then
      let (digits, rest) := scanDigits rest
      (c :: digits, rest)
    else ([], .char c :: rest)
  | input => ([], input)

/-- The digits after a point, if the input starts with one; there must be at least one. -/
def scanFraction? : List Glyph → Option (List Char × List Glyph)
  | .char '.' :: rest =>
    match scanDigits rest with
    | ([], _) => none
    | found => some found
  | input => some ([], input)

def scanSign : List Glyph → Bool × List Glyph
  | .char '-' :: rest => (true, rest)
  | .char '+' :: rest => (false, rest)
  | input => (false, input)

/-- The exponent, if the input starts with one; there must be at least one digit. -/
def scanExponent? : List Glyph → Option (Option Int × List Glyph)
  | .char c :: rest =>
    if c = 'e' ∨ c = 'E' then
      let (negative, rest) := scanSign rest
      match scanDigits rest with
      | ([], _) => none
      | (digits, rest) =>
        let n : Int := ofDigits 0 digits
        some (some (if negative then -n else n), rest)
    else some (none, .char c :: rest)
  | input => some (none, input)

/-- The digits before the point, and what follows them. A zero at the start is the only digit. -/
def scanWhole : List Glyph → List Char × List Glyph
  | .char '0' :: rest => (['0'], rest)
  | input => scanDigits input

/-- A number without its sign. -/
def scanNumber? (negative : Bool) (input : List Glyph) : Option (Token × List Glyph) :=
  match scanWhole input with
  | ([], _) => none
  | (whole, rest) =>
    match scanFraction? rest with
    | none => none
    | some (fraction, rest) =>
      match scanExponent? rest with
      | none => none
      | some (exponent, rest) => some (.number negative ⟨whole, fraction, exponent⟩, rest)

/-! ## The tokens of a text -/

def isBlank (c : Char) : Bool :=
  c == ' ' || c == '\n' || c == '\t' || c == '\r'

/-- What follows the given characters, if the input starts with them. -/
def dropWord? : List Char → List Glyph → Option (List Glyph)
  | [], input => some input
  | c :: word, .char d :: input => if c = d then dropWord? word input else none
  | _ :: _, _ => none

def punctuation? (c : Char) : Option Token :=
  if c = '{' then some .openBrace
  else if c = '}' then some .closeBrace
  else if c = '[' then some .openBracket
  else if c = ']' then some .closeBracket
  else if c = ',' then some .comma
  else if c = ':' then some .colon
  else none

/-- The rest of the word that starts with a character, and the token that the word is. -/
def word? (c : Char) : Option (List Char × Token) :=
  if c = 'n' then some (['u', 'l', 'l'], .null)
  else if c = 't' then some (['r', 'u', 'e'], .bool true)
  else if c = 'f' then some (['a', 'l', 's', 'e'], .bool false)
  else none

/-- The token that starts with the character `c`, and what follows it. -/
def nextFrom? (c : Char) (rest : List Glyph) : Option (Token × List Glyph) :=
  match punctuation? c, word? c with
  | some token, _ => some (token, rest)
  | none, some (word, token) => (dropWord? word rest).map (token, ·)
  | none, none =>
    if c = '"' then scanString? rest
    else if c = '-' then scanNumber? true rest
    else scanNumber? false (.char c :: rest)

theorem length_of_scanPieces {before : List Piece} {input : List Glyph} {found}
    (h : scanPieces before input = some found) : found.2.length < input.length := by
  fun_induction scanPieces before input
  all_goals first
    | contradiction
    | (rename_i ih; have := ih h; simp only [List.length_cons] at this ⊢; omega)
    | (cases h; simp)

theorem length_scanDigits (input : List Glyph) :
    (scanDigits input).1.length + (scanDigits input).2.length = input.length := by
  fun_induction scanDigits input with
  | case1 c rest hc digits tail h ih =>
    simp only [h, List.length_cons] at ih ⊢
    omega
  | case2 => simp
  | case3 => simp

theorem length_of_scanFraction? {input : List Glyph} {found}
    (h : scanFraction? input = some found) : found.2.length ≤ input.length := by
  unfold scanFraction? at h
  split at h
  · next rest =>
    have := length_scanDigits rest
    split at h
    · contradiction
    · cases h
      simp only [List.length_cons]
      omega
  · cases h
    simp

theorem length_scanSign (input : List Glyph) : (scanSign input).2.length ≤ input.length := by
  unfold scanSign
  split <;> simp

theorem length_of_scanExponent? {input : List Glyph} {found}
    (h : scanExponent? input = some found) : found.2.length ≤ input.length := by
  unfold scanExponent? at h
  split at h
  · next c rest =>
    split at h
    · have hs := length_scanSign rest
      have hd := length_scanDigits (scanSign rest).2
      simp only at h
      split at h
      · contradiction
      · next heq =>
        cases h
        rw [heq] at hd
        simp only [List.length_cons] at hd ⊢
        omega
    · cases h
      simp
  · cases h
    simp

theorem length_scanWhole (input : List Glyph) :
    (scanWhole input).1.length + (scanWhole input).2.length = input.length := by
  unfold scanWhole
  split
  · simp only [List.length_cons, List.length_nil]
    omega
  · exact length_scanDigits _

theorem length_of_scanNumber? {negative : Bool} {input : List Glyph} {found}
    (h : scanNumber? negative input = some found) : found.2.length < input.length := by
  unfold scanNumber? at h
  have hw := length_scanWhole input
  split at h
  · contradiction
  · next whole rest hne heq =>
    rw [heq] at hw
    have : 0 < whole.length := List.length_pos_iff.2 (by rintro rfl; exact hne rfl)
    split at h
    · contradiction
    · next hf =>
      have hf := length_of_scanFraction? hf
      split at h
      · contradiction
      · next he =>
        have he := length_of_scanExponent? he
        cases h
        simp only at hw hf he ⊢
        omega

theorem length_of_dropWord? {word : List Char} {input rest : List Glyph}
    (h : dropWord? word input = some rest) : rest.length ≤ input.length := by
  fun_induction dropWord? word input
  · cases h
    exact Nat.le_refl _
  · next ih =>
    have := ih h
    simp only [List.length_cons]
    omega
  · contradiction
  · contradiction

/-- Reading a token takes at least one glyph. -/
theorem length_of_nextFrom? {c : Char} {rest : List Glyph} {found}
    (h : nextFrom? c rest = some found) : found.2.length < rest.length + 1 := by
  unfold nextFrom? at h
  split at h
  · cases h
    exact Nat.lt_succ_self _
  · obtain ⟨p, hp, rfl⟩ := Option.map_eq_some_iff.1 h
    exact Nat.lt_succ_of_le (length_of_dropWord? hp)
  · split at h
    · obtain ⟨p, hp, rfl⟩ := Option.map_eq_some_iff.1 h
      exact Nat.lt_succ_of_lt (length_of_scanPieces hp)
    · split at h
      · exact Nat.lt_succ_of_lt (length_of_scanNumber? h)
      · exact length_of_scanNumber? h

/-- The tokens of the input, after those `before`, which are given last first. -/
def scanFrom (before : List Token) : List Glyph → Option (List Token)
  | [] => some before.reverse
  | .stray _ :: _ => none
  | .char c :: rest =>
    if isBlank c then scanFrom before rest
    else
      match h : nextFrom? c rest with
      | none => none
      | some (token, rest') =>
        have _shorter := length_of_nextFrom? h
        scanFrom (token :: before) rest'
termination_by input => input.length
decreasing_by
  · simp
  · simpa using _shorter

/-- The tokens of JSON text, blanks left out. -/
def Token.scan? (input : List Glyph) : Option (List Token) :=
  scanFrom [] input

/-! ## Writing -/

/-- The hexadecimal digit of a number below sixteen, in lower case. -/
def hexDigit (n : Nat) : Char :=
  if n < 10 then Char.ofNat ('0'.toNat + n) else Char.ofNat ('a'.toNat + n - 10)

/-- A character inside a string. -/
def escape (c : Char) : List Char :=
  if c = '"' then ['\\', '"']
  else if c = '\\' then ['\\', '\\']
  else if c = '\x08' then ['\\', 'b']
  else if c = '\x0c' then ['\\', 'f']
  else if c = '\n' then ['\\', 'n']
  else if c = '\r' then ['\\', 'r']
  else if c = '\t' then ['\\', 't']
  else if c.toNat < 0x20 then
    ['\\', 'u', '0', '0', hexDigit (c.toNat / 16), hexDigit (c.toNat % 16)]
  else [c]

/-- The text of a token. A string that denotes no text is written as half of a surrogate pair. -/
def Token.write : Token → List Char
  | .openBrace => ['{']
  | .closeBrace => ['}']
  | .openBracket => ['[']
  | .closeBracket => [']']
  | .comma => [',']
  | .colon => [':']
  | .null => ['n', 'u', 'l', 'l']
  | .bool true => ['t', 'r', 'u', 'e']
  | .bool false => ['f', 'a', 'l', 's', 'e']
  | .number negative numeral => (if negative then ['-'] else []) ++ numeral.write true
  | .string (some content) => '"' :: content.toList.flatMap escape ++ ['"']
  | .string none => '"' :: '\\' :: 'u' :: 'd' :: '8' :: '0' :: '0' :: ['"']

end SharedState.Json
