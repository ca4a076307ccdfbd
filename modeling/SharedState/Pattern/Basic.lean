import SharedState.Json.Token
import SharedState.Text.Blank

/-!
# Places of a pattern

A pattern is a regular expression. This module reads what stands for a single place of the text that
is matched: a character, an escape, a dot or an edge. Flags inside a pattern change how that is
read, from where they stand up to the end of their group.

The library knows the cases and kinds of the seven-bit letters only. So a pattern about characters
can neither ignore case nor speak of kinds of characters or edges of words; a pattern about bytes
can, but it must match nothing that splits a character.

A pattern stands between braces, so it holds no closing brace after an opening one. What needs one,
such as a counted repetition, is never complete: an opening brace that is no character is refused.
-/

namespace SharedState.Pattern

/-! ## Modes -/

/-- What a pattern can switch on and off. -/
inductive Flag
  | caseless
  | multiLine
  | dotAll
  | lazy
  | unicode
  | carriageReturns
  | spaced
deriving DecidableEq

def Flag.ofLetter? : Char → Option Flag
  | 'i' => some .caseless
  | 'm' => some .multiLine
  | 's' => some .dotAll
  | 'U' => some .lazy
  | 'u' => some .unicode
  | 'R' => some .carriageReturns
  | 'x' => some .spaced
  | _ => none

/-- The flags that decide whether a pattern is well formed: whether letters match in both cases,
whether the pattern is about characters and not bytes, and whether blanks in it do not count. -/
structure Mode where
  caseless : Bool := false
  unicode : Bool := true
  spaced : Bool := false
deriving DecidableEq

namespace Mode

def set (mode : Mode) (on : Bool) : Flag → Mode
  | .caseless => { mode with caseless := on }
  | .unicode => { mode with unicode := on }
  | .spaced => { mode with spaced := on }
  | _ => mode

/-- Reads flags up to the colon or parenthesis that ends them, which is left. The flags after a
hyphen are switched off. No flag comes twice, and before a parenthesis there is at least one. -/
def readFlags? (mode : Mode) (on : Bool) (seen : List Flag) : List Char → Option (Mode × List Char)
  | ':' :: rest => some (mode, ':' :: rest)
  | ')' :: rest => if seen.isEmpty then none else some (mode, ')' :: rest)
  | '-' :: c :: rest =>
    if on ∧ c ≠ ':' ∧ c ≠ ')' then readFlags? mode false seen (c :: rest) else none
  | c :: rest =>
    match Flag.ofLetter? c with
    | some flag =>
      if flag ∈ seen then none else readFlags? (mode.set on flag) on (flag :: seen) rest
    | none => none
  | [] => none

end Mode

/-- The text without blanks and comments at its start. A comment starts with a hash and takes the
line; `comment` says that the text starts inside one. -/
def skipSpace (comment : Bool) : List Char → List Char
  | [] => []
  | c :: rest =>
    if comment then skipSpace (c ≠ '\n') rest
    else if Text.isBlank c then skipSpace false rest
    else if c = '#' then skipSpace true rest
    else c :: rest

/-- The text from the first character on that counts. -/
def Mode.skip (mode : Mode) (text : List Char) : List Char :=
  if mode.spaced then skipSpace false text else text

/-! ## Atoms -/

/-- What a pattern says of one place: a character, which may be written as a byte of two digits; any
character; an edge, of a word or of a line; or a kind of characters, or all others. -/
inductive Atom
  | char (c : Char) (byte : Bool)
  | any
  | edge (ofWord : Bool)
  | kind (negated : Bool)
deriving DecidableEq

/-- The atom may stand where the mode holds. -/
def Mode.allows (mode : Mode) : Atom → Bool
  | .char c byte => if mode.unicode then !mode.caseless else !(byte && 0x7F < c.toNat)
  | .any => mode.unicode
  | .edge ofWord => !(ofWord && mode.unicode)
  | .kind negated => !mode.unicode && !negated

/-- Reads a given number of hexadecimal digits after those that denote `value`. -/
def readHex? (mode : Mode) : Nat → Nat → List Char → Option (Nat × List Char)
  | 0, value, text => some (value, text)
  | count + 1, value, text =>
    match mode.skip text with
    | c :: rest =>
      match Json.hexDigit? c with
      | some digit => readHex? mode count (16 * value + digit) rest
      | none => none
    | [] => none

/-- Reads a character given by its code point, in a given number of digits. -/
def readCodePoint? (mode : Mode) (digits : Nat) (text : List Char) : Option (Atom × List Char) :=
  match readHex? mode digits 0 text with
  | some (value, rest) =>
    if value.isValidChar then some (.char (Char.ofNat value) (digits = 2), rest) else none
  | none => none

/-- A backslash before the character takes away what is special of it. -/
def isEscapable (c : Char) : Bool :=
  c.toNat < 0x80 && !c.isAlphanum && c ≠ '<' && c ≠ '>'

/-- Reads what a backslash and the start of a text stand for. -/
def readEscape? (mode : Mode) : List Char → Option (Atom × List Char)
  | [] => none
  | c :: rest =>
    match c with
    | 'x' => readCodePoint? mode 2 rest
    | 'u' => readCodePoint? mode 4 rest
    | 'U' => readCodePoint? mode 8 rest
    | 'd' | 's' | 'w' => some (.kind false, rest)
    | 'D' | 'S' | 'W' => some (.kind true, rest)
    | 'A' | 'z' => some (.edge false, rest)
    | 'b' | 'B' | '<' | '>' => some (.edge true, rest)
    | 'a' => some (.char '\x07' false, rest)
    | 'f' => some (.char '\x0c' false, rest)
    | 'n' => some (.char '\n' false, rest)
    | 'r' => some (.char '\r' false, rest)
    | 't' => some (.char '\t' false, rest)
    | 'v' => some (.char '\x0b' false, rest)
    | c => if isEscapable c then some (.char c false, rest) else none

/-- Reads what stands for a single place, outside of classes. -/
def readAtom? (mode : Mode) : List Char → Option (Atom × List Char)
  | '\\' :: rest => readEscape? mode rest
  | '.' :: rest => some (.any, rest)
  | '^' :: rest | '$' :: rest => some (.edge false, rest)
  | c :: rest => some (.char c false, rest)
  | [] => none

end SharedState.Pattern
