import SharedState.Json.Token
import SharedState.Text.Digits

/-!
# Form fields in a query

A query is names with values: pairs with ampersands between them, in each of which the first equals
sign ends the name. In both a plus sign stands for a space, and a percent sign with two hexadecimal
digits for a byte; the bytes are then read as text. What is no text is a name that nothing asks for,
or a value that cannot be read.
-/

namespace SharedState.Http.Form

def decode : List Char → List UInt8
  | [] => []
  | '+' :: rest => 0x20 :: decode rest
  | '%' :: high :: low :: rest =>
    match Json.hexDigit? high, Json.hexDigit? low with
    | some h, some l => UInt8.ofNat (h * 16 + l) :: decode rest
    | _, _ => 0x25 :: decode (high :: low :: rest)
  | c :: rest => String.utf8EncodeChar c ++ decode rest

/-- The text that an encoded text stands for. -/
def text? (encoded : List Char) : Option String :=
  String.fromUTF8? ⟨(decode encoded).toArray⟩

abbrev Field := Option String × Option String

def fields (query : List Char) : List Field :=
  ((query.splitOn '&').filter (· ≠ [])).map fun pair =>
    (text? (pair.takeWhile (· ≠ '=')), text? ((pair.dropWhile (· ≠ '=')).drop 1))

/-- The number of 64 bits that a field gives, if it is there. A field must not be there twice. -/
def natural? (fields : List Field) (name : String) : Option (Option Nat) :=
  match fields.filter (·.1 = some name) with
  | [] => some none
  | [(_, some value)] => (Text.readNat Text.maxWord value.toList).toOption.map some
  | _ => none

end SharedState.Http.Form
