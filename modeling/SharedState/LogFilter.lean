import SharedState.Error
import SharedState.Number.Decimal
import SharedState.Pattern.Sequence
import SharedState.Text.Digits
import SharedState.Text.Slice

/-!
# Log filters

The text that says what is logged: directives with commas between them, empty ones left out. A
directive names a level or a target, or it names a target or a span in brackets, which may have a
field in braces, and gives a level to it after an equals sign. A field may be followed by the value
that it must have, a number or a pattern, after another equals sign. Any name that is no level is a
target, so a directive can only be bad in its form, in the value of its field or in the level that
it gives.

Blanks around a directive do not count for its form. But its field and its level are then taken from
the directive as it is written, at the places that they have without the blanks.
-/

namespace SharedState.LogFilter

def levelNames : List (List Char) :=
  ["off", "error", "warn", "info", "debug", "trace"].map String.toList

/-- The text names a level: by its name in letters of any case, or by a number up to five. Without a
name it stands for all levels. -/
def isLevel (text : List Char) : Bool :=
  text.isEmpty || levelNames.contains (text.map Char.toLower) ||
    (match Text.readNat 5 text with
      | .ok _ => true
      | .error _ => false)

def isFieldValue (text : List Char) : Bool :=
  (Binary.read? text : Option Double).isSome || Pattern.isPattern text

/-- The text can stand for a field: a name, and a value after an equals sign if there is one. What
follows a second equals sign is not looked at. -/
def isField (text : List Char) : Bool :=
  match text.splitOn '=' with
  | _ :: value :: _ => isFieldValue value
  | _ => true

/-- A directive may start with the character. -/
def startsName (c : Char) : Bool :=
  c = '-' || c = ':' || c = '_' || Text.isAlphanumeric c

/-- The form of a directive: what is left of it where its field starts and where the field ends, if
it has one, and what is left where its level starts, if it gives one. -/
structure Form where
  field : Option (List Char × List Char) := none
  level : Option (List Char) := none
deriving DecidableEq

/-- The form of a directive whose target and span are read. -/
def Form.ofEnd? (field : Option (List Char × List Char)) : List Char → Option Form
  | [] => some { field }
  | '=' :: level => some { field, level := some level }
  | _ => none

/-- The form of a directive, where the text starts after the opening brace of a field. -/
def Form.ofField? (text : List Char) : Option Form :=
  match text.dropWhile (· ≠ '}') with
  | '}' :: ']' :: rest =>
    let field := (text, '}' :: ']' :: rest)
    if text.head? = some '}' then none else ofEnd? (some field) rest
  | _ => none

/-- The form of a directive, where the text starts after the opening bracket of a span. -/
def Form.ofSpan? (text : List Char) : Option Form :=
  match text.dropWhile fun c => c ≠ ']' && c ≠ '{' with
  | ']' :: rest => ofEnd? none rest
  | '{' :: rest => ofField? rest
  | _ => none

def Form.of? : List Char → Option Form
  | [] => none
  | '[' :: rest => ofSpan? rest
  | c :: rest =>
    if startsName c then
      match rest.dropWhile fun c => c ≠ '=' && c ≠ '[' with
      | '[' :: rest => ofSpan? rest
      | rest => ofEnd? none rest
    else none

def isDirective (text : List Char) : Bool :=
  let trimmed := Text.trim text
  let place (rest : List Char) := Text.byteSize trimmed - Text.byteSize rest
  match Form.of? trimmed with
  | none => false
  | some form =>
    (form.field.all fun (start, stop) =>
      (Text.slice? (place start) (place stop) text).any isField) &&
    form.level.all fun start =>
      (Text.splitAt? (place start) text).any fun (_, level) => isLevel level

/-- The filter is well formed: each of its directives is. -/
def isValid (text : List Char) : Bool :=
  ((text.splitOn ',').filter (· ≠ [])).all isDirective

/-- Sets up what a process logs. A process can do so only once, but a bad filter is found first. -/
def install (installed : Bool) (filter : String) : Except Error Unit :=
  if ¬ isValid filter.toList then .error (.settings "Invalid log filter")
  else if installed then
    .error (.settings
      "Failed to install logger: a global default trace dispatcher has already been set")
  else .ok ()

end SharedState.LogFilter
