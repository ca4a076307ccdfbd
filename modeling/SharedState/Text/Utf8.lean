/-!
# Characters in bytes

Bytes are read as UTF-8. A byte sequence that is no text still has a reading here, as glyphs: the
well-formed characters stand for themselves and every byte that belongs to none is kept as a stray
byte. A reader that skips over a part of its input can so skip over bytes that are no text, and
still refuse them wherever text is wanted.
-/

namespace SharedState.Text

/-- A character, or a byte that is part of no well-formed character. -/
inductive Glyph
  | char (c : Char)
  | stray (byte : UInt8)
deriving DecidableEq

def isContinuation (b : UInt8) : Bool :=
  0x80 ≤ b && b ≤ 0xBF

/-- The low six bits, which a continuation byte carries. -/
def payload (b : UInt8) : Nat :=
  b.toNat % 64

def isPair (a b : UInt8) : Bool :=
  0xC2 ≤ a && a ≤ 0xDF && isContinuation b

/-- The bytes begin a character of three bytes: not one that two bytes can write, and no surrogate.
-/
def isTriple (a b c : UInt8) : Bool :=
  0xE0 ≤ a && a ≤ 0xEF && isContinuation b && isContinuation c &&
    (a != 0xE0 || 0xA0 ≤ b) && (a != 0xED || b ≤ 0x9F)

/-- The bytes begin a character of four bytes: not one that three bytes can write, and none beyond
the last code point. -/
def isQuadruple (a b c d : UInt8) : Bool :=
  0xF0 ≤ a && a ≤ 0xF4 && isContinuation b && isContinuation c && isContinuation d &&
    (a != 0xF0 || 0x90 ≤ b) && (a != 0xF4 || b ≤ 0x8F)

/-- The character that the byte `a` begins, and the number of bytes after it that belong to it. -/
def character? (a : UInt8) (rest : List UInt8) : Option (Char × Nat) :=
  if a < 0x80 then some (Char.ofNat a.toNat, 0)
  else
    match rest with
    | [] => none
    | b :: rest =>
      if isPair a b then some (Char.ofNat (a.toNat % 32 * 64 + payload b), 1)
      else
        match rest with
        | [] => none
        | c :: rest =>
          if isTriple a b c then
            some (Char.ofNat (a.toNat % 16 * 4096 + payload b * 64 + payload c), 2)
          else
            match rest with
            | [] => none
            | d :: _ =>
              if isQuadruple a b c d then
                some (Char.ofNat (a.toNat % 8 * 262144 + payload b * 4096 + payload c * 64 +
                  payload d), 3)
              else none

/-- The glyphs of bytes, each stray byte on its own. -/
def glyphsOf : List UInt8 → List Glyph
  | [] => []
  | a :: rest =>
    match character? a rest with
    | some (c, more) => .char c :: glyphsOf (rest.drop more)
    | none => .stray a :: glyphsOf rest
termination_by bytes => bytes.length
decreasing_by all_goals simp only [List.length_cons, List.length_drop]; omega

/-- The glyphs of a byte sequence: the characters of a text, or the glyphs of other bytes. -/
def glyphs (bytes : ByteArray) : List Glyph :=
  match String.fromUTF8? bytes with
  | some text => text.toList.map .char
  | none => glyphsOf bytes.toList

/-- A text is read back from its bytes. -/
theorem glyphs_toUTF8 (text : String) : glyphs text.toUTF8 = text.toList.map .char := by
  have h : String.fromUTF8? text.toUTF8 = some text := by
    simp only [String.fromUTF8?]
    split
    · rfl
    · next hv => exact absurd text.isValidUTF8 (by simpa using hv)
  rw [glyphs, h]

end SharedState.Text
