import SharedState.Json.Token

/-!
# Scalars of settings files

The words of the settings format TOML: blanks, comments and line ends, keys, strings of four sorts,
numbers and dates. Every reader takes a prefix of the text, as long as there is, and gives what it
found with what follows; it gives nothing if the text does not start with such a word.

Of a date only its validity matters here, because no setting is one.
-/

namespace SharedState.Toml

open SharedState.Text

/-- A reader of a prefix of a text. -/
abbrev Reader := StateT (List Char) Option

/-! ## Blanks, comments and line ends -/

def isBlank (c : Char) : Bool := c == ' ' || c == '\t'

def isPrintable (c : Char) : Bool := c == '\t' || (0x20 ≤ c.toNat && c.toNat != 0x7F)

def blanks : Reader Unit := fun text => some ((), text.dropWhile isBlank)

def expect (c : Char) : Reader Unit
  | d :: rest => if c = d then some ((), rest) else none
  | [] => none

/-- What follows a line end at the start of a text. -/
def afterNewline? : List Char → Option (List Char)
  | '\n' :: rest => some rest
  | '\r' :: '\n' :: rest => some rest
  | _ => none

/-- What follows a comment, if the text starts with one. -/
def afterComment : List Char → List Char
  | '#' :: rest => rest.dropWhile isPrintable
  | text => text

def lineRest : Reader Unit := fun text =>
  match afterComment (text.dropWhile isBlank) with
  | [] => some ((), [])
  | text => (afterNewline? text).map ((), ·)

/-- Skips blanks, line ends and comments; `fuel` bounds their number. -/
def spaceBy : Nat → List Char → List Char
  | 0, text => text
  | fuel + 1, text =>
    match text with
    | ' ' :: rest | '\t' :: rest | '\n' :: rest | '\r' :: '\n' :: rest => spaceBy fuel rest
    | '#' :: rest => spaceBy fuel (rest.dropWhile isPrintable)
    | text => text

def space : Reader Unit := fun text => some ((), spaceBy text.length text)

/-! ## Strings -/

/-- A character that may stand in a quoted string without a backslash. -/
def isBasic (c : Char) : Bool := isPrintable c && c != '"' && c != '\\'

/-- A character that may stand in a literal string. -/
def isLiteral (c : Char) : Bool := isPrintable c && c != '\''

/-- The character with a code point in hexadecimal digits. -/
def codePoint? (digits : List Char) : Option Char :=
  match digits.mapM Json.hexDigit? with
  | some values =>
    let n := values.foldl (fun n d => 16 * n + d) 0
    if n.isValidChar then some (Char.ofNat n) else none
  | none => none

/-- The character that a backslash and the start of the text stand for. -/
def escape : Reader Char
  | 'b' :: rest => some ('\x08', rest)
  | 't' :: rest => some ('\t', rest)
  | 'n' :: rest => some ('\n', rest)
  | 'f' :: rest => some ('\x0c', rest)
  | 'r' :: rest => some ('\r', rest)
  | '"' :: rest => some ('"', rest)
  | '\\' :: rest => some ('\\', rest)
  | 'u' :: rest =>
    if rest.length < 4 then none else (codePoint? (rest.take 4)).map (·, rest.drop 4)
  | 'U' :: rest =>
    if rest.length < 8 then none else (codePoint? (rest.take 8)).map (·, rest.drop 8)
  | _ => none

/-- The rest of a quoted string on one line, after the characters `before`, last first. -/
def basicBy (before : List Char) : Nat → Reader String
  | 0, _ => none
  | fuel + 1, text =>
    match text with
    | '"' :: rest => some (String.ofList before.reverse, rest)
    | '\\' :: rest =>
      match escape rest with
      | some (c, rest) => basicBy (c :: before) fuel rest
      | none => none
    | c :: rest => if isBasic c then basicBy (c :: before) fuel rest else none
    | [] => none

/-- The number of given characters at the start of a text. -/
def runLength (c : Char) (text : List Char) : Nat := (text.takeWhile (· == c)).length

def skipLines : List Char → List Char
  | ' ' :: rest | '\t' :: rest | '\n' :: rest => skipLines rest
  | '\r' :: '\n' :: rest => skipLines rest
  | text => text

/-- The rest of a quoted string over several lines. Up to two quotes are characters of it, and as
many may stand right before the three that end it. A backslash at the end of a line takes the line
end and all blanks after it away. -/
def basicLinesBy (before : List Char) : Nat → Reader String
  | 0, _ => none
  | fuel + 1, text =>
    let quotes := runLength '"' text
    if 3 ≤ quotes then
      if quotes ≤ 5 then
        some (String.ofList (before.reverse ++ List.replicate (quotes - 3) '"'), text.drop quotes)
      else none
    else
      match text with
      | '"' :: rest => basicLinesBy ('"' :: before) fuel rest
      | '\\' :: rest =>
        match afterNewline? (rest.dropWhile isBlank) with
        | some rest => basicLinesBy before fuel (skipLines rest)
        | none =>
          match escape rest with
          | some (c, rest) => basicLinesBy (c :: before) fuel rest
          | none => none
      | c :: rest =>
        match afterNewline? text with
        | some rest => basicLinesBy ('\n' :: before) fuel rest
        | none => if isBasic c then basicLinesBy (c :: before) fuel rest else none
      | [] => none

/-- The rest of a literal string over several lines. -/
def literalLinesBy (before : List Char) : Nat → Reader String
  | 0, _ => none
  | fuel + 1, text =>
    let quotes := runLength '\'' text
    if 3 ≤ quotes then
      if quotes ≤ 5 then
        some (String.ofList (before.reverse ++ List.replicate (quotes - 3) '\''), text.drop quotes)
      else none
    else
      match text with
      | '\'' :: rest => literalLinesBy ('\'' :: before) fuel rest
      | c :: rest =>
        match afterNewline? text with
        | some rest => literalLinesBy ('\n' :: before) fuel rest
        | none => if isLiteral c then literalLinesBy (c :: before) fuel rest else none
      | [] => none

def lineString : Reader String
  | '"' :: rest => basicBy [] (rest.length + 1) rest
  | '\'' :: rest =>
    let content := rest.takeWhile isLiteral
    match rest.drop content.length with
    | '\'' :: rest => some (String.ofList content, rest)
    | _ => none
  | _ => none

/-- A text without the line end that it may start with. -/
def dropNewline (text : List Char) : List Char := (afterNewline? text).getD text

def string : Reader String := fun text =>
  match text with
  | '"' :: '"' :: '"' :: rest =>
    let rest := dropNewline rest
    basicLinesBy [] (rest.length + 1) rest
  | '\'' :: '\'' :: '\'' :: rest =>
    let rest := dropNewline rest
    literalLinesBy [] (rest.length + 1) rest
  | text => lineString text

/-! ## Keys -/

def isBare (c : Char) : Bool :=
  ('A' ≤ c && c ≤ 'Z') || ('a' ≤ c && c ≤ 'z') || isDigit c || c == '-' || c == '_'

def simpleKey : Reader String := fun text =>
  match text with
  | '"' :: _ | '\'' :: _ => lineString text
  | text =>
    let key := text.takeWhile isBare
    if key = [] then none else some (String.ofList key, text.drop key.length)

/-- The parts of a key after the first one; `fuel` bounds their number. -/
def keyRest : Nat → Reader (List String)
  | 0, _ => none
  | fuel + 1, text =>
    match text with
    | '.' :: rest => (do
        blanks
        let key ← simpleKey
        blanks
        let more ← keyRest fuel
        return key :: more) rest
    | text => some ([], text)

/-- The number of nested arrays and tables, and of parts of a key, that is too many. -/
def nestingLimit : Nat := 80

def key : Reader (List String) := do
  blanks
  let first ← simpleKey
  blanks
  let more ← keyRest nestingLimit
  if nestingLimit ≤ more.length + 1 then failure else return first :: more

/-! ## Numbers -/

/-- Digits that may have single underscores between them, after a first digit. -/
def moreDigits (isDigit : Char → Bool) : List Char → List Char × List Char
  | '_' :: c :: rest =>
    if isDigit c then
      let (digits, rest) := moreDigits isDigit rest
      (c :: digits, rest)
    else ([], '_' :: c :: rest)
  | c :: rest =>
    if isDigit c then
      let (digits, rest) := moreDigits isDigit rest
      (c :: digits, rest)
    else ([], c :: rest)
  | [] => ([], [])

/-- At least one digit, with single underscores between digits. -/
def digits (isDigit : Char → Bool) : Reader (List Char)
  | c :: rest =>
    if isDigit c then
      let (more, rest) := moreDigits isDigit rest
      some (c :: more, rest)
    else none
  | [] => none

/-- A sign, if there is one: whether it is a minus. -/
def sign : Reader Bool
  | '-' :: rest => some (true, rest)
  | '+' :: rest => some (false, rest)
  | text => some (false, text)

/-- The digits of a decimal number; a zero at the start is the only digit. -/
def wholeDigits : Reader (List Char)
  | '0' :: rest => some (['0'], rest)
  | text => digits isDigit text

def inBase (base : Nat) (digits : List Char) : Nat :=
  digits.foldl (fun n c => base * n + (Json.hexDigit? c).getD 0) 0

/-- An integer of 64 bits: decimal with a sign, or with a base and without one. -/
def integer : Reader Int := fun text =>
  let based := fun (base : Nat) (rest : List Char) => (do
    let ds ← digits fun c => (Json.hexDigit? c).any (· < base)
    let n := inBase base ds
    if n < 1 <<< 63 then return (n : Int) else failure : Reader Int) rest
  match text with
  | '0' :: 'x' :: rest => based 16 rest
  | '0' :: 'o' :: rest => based 8 rest
  | '0' :: 'b' :: rest => based 2 rest
  | text => (do
    let negative ← sign
    let ds ← wholeDigits
    let n := ofDigits 0 ds
    if n < 1 <<< 63 ∨ (negative ∧ n = 1 <<< 63) then
      return if negative then -(n : Int) else n
    else failure : Reader Int) text

/-- The part of a number after a point, if there is one. -/
def fractionPart : Reader (Option (List Char))
  | '.' :: rest => (digits isDigit rest).map fun (ds, rest) => (some ds, rest)
  | text => some (none, text)

def exponentPart : Reader (Option Int)
  | c :: rest =>
    if c = 'e' ∨ c = 'E' then (do
      let negative ← sign
      let ds ← digits isDigit
      let n : Int := ofDigits 0 ds
      return some (if negative then -n else n) : Reader (Option Int)) rest
    else some (none, c :: rest)
  | [] => some (none, [])

/-- A floating point number: with a point or an exponent or both, or a name. A positive number that
is too large for 64 bits is refused. -/
def float : Reader Unit := do
  let negative ← sign
  let name := fun text => match text with
    | 'i' :: 'n' :: 'f' :: rest | 'n' :: 'a' :: 'n' :: rest => some (true, rest)
    | text => some (false, text)
  if (← name) then return
  let whole ← wholeDigits
  let fraction ← fractionPart
  let exponent ← exponentPart
  if fraction.isNone ∧ exponent.isNone then failure
  let number : Numeral := ⟨whole, fraction.getD [], exponent⟩
  let value : Double := .ofDecimal negative number.toDecimal
  if value = .infinite false then failure

/-! ## Dates -/

/-- A number of exactly `count` digits within bounds. -/
def fixed (count least greatest : Nat) : Reader Nat := fun text =>
  let ds := text.take count
  let n := ofDigits 0 ds
  if ds.length = count ∧ ds.all isDigit ∧ least ≤ n ∧ n ≤ greatest then some (n, text.drop count)
  else none

def daysIn (year month : Nat) : Nat :=
  if month = 2 then
    if year % 4 = 0 ∧ (year % 100 ≠ 0 ∨ year % 400 = 0) then 29 else 28
  else if month = 4 ∨ month = 6 ∨ month = 9 ∨ month = 11 then 30
  else 31

def date : Reader Unit := do
  let year ← fixed 4 0 9999
  expect '-'
  let month ← fixed 2 1 12
  expect '-'
  let _ ← fixed 2 1 (daysIn year month)

/-- A time of day, with or without a fraction of a second. -/
def time : Reader Unit := do
  let _ ← fixed 2 0 23
  expect ':'
  let _ ← fixed 2 0 59
  expect ':'
  let _ ← fixed 2 0 60
  fun text =>
    match text with
    | '.' :: c :: rest =>
      if isDigit c then some ((), rest.dropWhile isDigit) else some ((), text)
    | text => some ((), text)

/-- The distance of a time from the meridian, if it is given. -/
def offset : Reader Unit := fun text =>
  match text with
  | 'Z' :: rest | 'z' :: rest => some ((), rest)
  | '+' :: rest | '-' :: rest => (do
    let _ ← fixed 2 0 23
    expect ':'
    let _ ← fixed 2 0 59 : Reader Unit) rest
  | text => some ((), text)

def dateTime : Reader Unit := fun text =>
  match date text with
  | none => time text
  | some (_, rest) =>
    match rest with
    | c :: after =>
      if c = 'T' ∨ c = 't' ∨ c = ' ' then
        match time after with
        | some (_, rest) => offset rest
        | none => some ((), rest)
      else some ((), rest)
    | [] => some ((), [])

end SharedState.Toml
