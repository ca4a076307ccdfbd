/-!
# Blank characters

The characters with the Unicode property `White_Space`, and the two things the library does with
them: cutting them off both ends of a text, and splitting a text into its words.
-/

namespace SharedState.Text

/-- The character has the Unicode property `White_Space`. -/
def isBlank (c : Char) : Bool :=
  let n := c.toNat
  (9 ≤ n && n ≤ 13) || n == 32 || n == 0x85 || n == 0xA0 || n == 0x1680 ||
    (0x2000 ≤ n && n ≤ 0x200A) || n == 0x2028 || n == 0x2029 || n == 0x202F || n == 0x205F ||
    n == 0x3000

def trim (text : List Char) : List Char :=
  ((text.dropWhile isBlank).reverse.dropWhile isBlank).reverse

/-- Words of `text`, where `word` holds the characters of the unfinished word, last one first. -/
def wordsFrom (word : List Char) : List Char → List (List Char)
  | [] => if word.isEmpty then [] else [word.reverse]
  | c :: rest =>
    if isBlank c then
      if word.isEmpty then wordsFrom [] rest else word.reverse :: wordsFrom [] rest
    else wordsFrom (c :: word) rest

/-- The maximal runs of characters that are not blank, in order. -/
def words (text : List Char) : List (List Char) :=
  wordsFrom [] text

/-- Every blank in the sense of core is a blank here. -/
theorem isBlank_of_isWhitespace {c : Char} (h : c.isWhitespace = true) : isBlank c = true := by
  simp only [Char.isWhitespace, Bool.or_eq_true, decide_eq_true_eq] at h
  rcases h with ((rfl | rfl) | rfl) | rfl <;> decide

/-- Reading words never leaves an empty one. -/
theorem ne_nil_of_mem_words {text word : List Char} (h : word ∈ words text) : word ≠ [] := by
  have key : ∀ (text acc : List Char), word ∈ wordsFrom acc text → word ≠ [] := by
    intro text
    induction text with
    | nil =>
      intro acc h
      cases acc <;> simp_all [wordsFrom]
    | cons c rest ih =>
      intro acc h
      unfold wordsFrom at h
      split at h
      · split at h
        · exact ih _ h
        · rcases List.mem_cons.1 h with rfl | h
          · simp_all
          · exact ih _ h
      · exact ih _ h
  exact key text [] h

end SharedState.Text
