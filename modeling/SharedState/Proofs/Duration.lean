import Mathlib.Data.List.TakeWhile
import SharedState.Duration

/-!
# Durations are read by their grammar

A text of a duration is a whole number with a unit after it, and blanks around
both. `Written` is that grammar, said without the reader: it names the blanks, the
number and the unit of a text, and `read_exact` says that the reader accepts the
texts of the grammar whose number fits a word, no others, and makes of each the
number of its unit.

The reader takes a text apart from its end, so what is to be shown of it is that
nothing else could have been meant: the suffixes end in different letters except
for `ms` and `s`, which are told apart by the letter before, and a number ends in
a digit, so it never lends its last character to a unit. Blanks are cut off where
the number and the unit have none.
-/

namespace SharedState

namespace Text

variable {text before body after : List Char} {limit start n : Nat}

/-! ## Blanks around a text -/

/-- No cut goes past a character that is not blank. -/
theorem dropWhile_append_of_not_blank (hne : body ≠ []) (hbody : ∀ c ∈ body, isBlank c = false)
    (rest : List Char) : (body ++ rest).dropWhile isBlank = body ++ rest := by
  obtain ⟨c, others, rfl⟩ := List.exists_cons_of_ne_nil hne
  exact List.dropWhile_cons_of_neg (by simp [hbody c List.mem_cons_self])

theorem trim_append (hbefore : ∀ c ∈ before, isBlank c = true)
    (hafter : ∀ c ∈ after, isBlank c = true) (hne : body ≠ [])
    (hbody : ∀ c ∈ body, isBlank c = false) : trim (before ++ body ++ after) = body := by
  have hleft : (before ++ (body ++ after)).dropWhile isBlank = body ++ after := by
    rw [List.dropWhile_append_of_pos hbefore, dropWhile_append_of_not_blank hne hbody]
  have hright : (after.reverse ++ body.reverse).dropWhile isBlank = body.reverse := by
    have hstop := dropWhile_append_of_not_blank (List.reverse_ne_nil_iff.2 hne)
      (fun c hc => hbody c (List.mem_reverse.1 hc)) []
    rw [List.append_nil] at hstop
    rw [List.dropWhile_append_of_pos fun c hc => hafter c (List.mem_reverse.1 hc), hstop]
  rw [trim, List.append_assoc, hleft, List.reverse_append, hright, List.reverse_reverse]

theorem exists_blanks (text : List Char) :
    ∃ before after, text = before ++ trim text ++ after ∧
      (∀ c ∈ before, isBlank c = true) ∧ ∀ c ∈ after, isBlank c = true := by
  let rest := text.dropWhile isBlank
  refine ⟨text.takeWhile isBlank, (rest.reverse.takeWhile isBlank).reverse, ?_,
    fun c hc => (List.mem_takeWhile_imp hc :), fun c hc =>
      (List.mem_takeWhile_imp (List.mem_reverse.1 hc) :)⟩
  have hrest : trim text ++ (rest.reverse.takeWhile isBlank).reverse = rest := by
    rw [trim, ← List.reverse_append, List.takeWhile_append_dropWhile, List.reverse_reverse]
  rw [List.append_assoc, hrest, List.takeWhile_append_dropWhile]

/-! ## Whole numbers -/

theorem isDigit_iff {c : Char} : isDigit c = true ↔ '0' ≤ c ∧ c ≤ '9' := by
  rw [isDigit, Bool.and_eq_true, decide_eq_true_iff, decide_eq_true_iff]

theorem ofDigits_cons (start : Nat) (c : Char) (rest : List Char) :
    ofDigits start (c :: rest) = ofDigits (10 * start + (c.toNat - '0'.toNat)) rest := by
  rw [ofDigits, List.foldl_cons, ofDigits]

theorem le_ofDigits (start : Nat) (digits : List Char) : start ≤ ofDigits start digits := by
  induction digits generalizing start with
  | nil => exact Nat.le_refl _
  | cons c rest ih =>
      have hrest := ih (10 * start + (c.toNat - '0'.toNat))
      rw [ofDigits_cons]
      omega

/-- Bounded reading takes the runs of digits whose number is in bounds. The bound is
looked at after each digit, which comes to the same because the number only grows. -/
theorem boundedDigits_eq_ok_iff {digits : List Char} (hstart : start ≤ limit) :
    boundedDigits limit start digits = .ok n ↔
      (∀ c ∈ digits, isDigit c = true) ∧ ofDigits start digits = n ∧ n ≤ limit := by
  induction digits generalizing start with
  | nil =>
      constructor
      · intro h
        cases h
        exact ⟨nofun, rfl, hstart⟩
      · rintro ⟨-, rfl, -⟩
        rfl
  | cons c rest ih =>
      rw [boundedDigits, digit?, List.forall_mem_cons, isDigit_iff, ofDigits_cons]
      by_cases hc : '0' ≤ c ∧ c ≤ '9'
      · rw [if_pos hc]
        dsimp only
        split
        · next hlarge =>
            have hgrow := le_ofDigits (10 * start + (c.toNat - '0'.toNat)) rest
            constructor
            · nofun
            · rintro ⟨-, rfl, hle⟩
              omega
        · next hsmall => rw [ih (by omega), and_iff_right hc]
      · rw [if_neg hc]
        exact ⟨nofun, fun h => absurd h.1.1 hc⟩

/-- The text is a whole number: a plus sign or none, and one or more digits, which may
start with zeros. -/
def IsWhole (text : List Char) (n : Nat) : Prop :=
  ∃ sign digits, text = sign ++ digits ∧ (sign = [] ∨ sign = ['+']) ∧ digits ≠ [] ∧
    (∀ c ∈ digits, isDigit c = true) ∧ ofDigits 0 digits = n

theorem readNat_eq_ok_iff : readNat limit text = .ok n ↔ IsWhole text n ∧ n ≤ limit := by
  have hbounded : ∀ digits, boundedDigits limit 0 digits = .ok n ↔
      (∀ c ∈ digits, isDigit c = true) ∧ ofDigits 0 digits = n ∧ n ≤ limit :=
    fun digits => boundedDigits_eq_ok_iff limit.zero_le
  constructor
  · intro h
    unfold readNat at h
    split at h
    · cases h
    · cases h
    · next digits hne =>
        obtain ⟨hdigits, hvalue, hle⟩ := (hbounded digits).1 h
        exact ⟨⟨['+'], digits, rfl, .inr rfl, fun hnil => hne (hnil ▸ rfl), hdigits, hvalue⟩, hle⟩
    · next digits hne _ _ =>
        obtain ⟨hdigits, hvalue, hle⟩ := (hbounded _).1 h
        exact ⟨⟨[], _, rfl, .inl rfl, hne, hdigits, hvalue⟩, hle⟩
  · rintro ⟨⟨sign, digits, rfl, hsign, hne, hdigits, hvalue⟩, hle⟩
    obtain ⟨c, rest, rfl⟩ := List.exists_cons_of_ne_nil hne
    have hread := (hbounded (c :: rest)).2 ⟨hdigits, hvalue, hle⟩
    rcases hsign with rfl | rfl
    · have hplus : c ≠ '+' := by
        rintro rfl
        exact absurd (hdigits '+' List.mem_cons_self) (by decide)
      rw [List.nil_append, readNat]
      · exact hread
      all_goals simp [hplus]
    · exact hread

theorem isBlank_of_isDigit {c : Char} (h : isDigit c = true) : isBlank c = false := by
  have hbounds : 48 ≤ c.toNat ∧ c.toNat ≤ 57 := isDigit_iff.1 h
  simp only [isBlank, Bool.or_eq_false_iff, Bool.and_eq_false_iff, decide_eq_false_iff_not,
    beq_eq_false_iff_ne]
  omega

/-- A whole number ends in a digit, which no suffix starts with. -/
theorem IsWhole.exists_last (h : IsWhole text n) :
    ∃ front c, text = front ++ [c] ∧ isDigit c = true := by
  obtain ⟨sign, digits, rfl, -, hne, hdigits, -⟩ := h
  refine ⟨sign ++ digits.dropLast, digits.getLast hne, ?_, hdigits _ (List.getLast_mem hne)⟩
  rw [List.append_assoc, List.dropLast_concat_getLast hne]

theorem IsWhole.not_blank (h : IsWhole text n) {c : Char} (hc : c ∈ text) :
    isBlank c = false := by
  obtain ⟨sign, digits, rfl, hsign, -, hdigits, -⟩ := h
  rcases List.mem_append.1 hc with hc | hc
  · rcases hsign with rfl | rfl
    · cases hc
    · rw [List.mem_singleton.1 hc]
      decide
  · exact isBlank_of_isDigit (hdigits c hc)

end Text

namespace Duration

open Text (IsWhole)

variable {text number : List Char} {n : Nat} {unit : Unit} {d : Duration}

/-! ## Units -/

/-- What stands after a number to name the unit. -/
def Unit.suffix : Unit → List Char
  | .milliseconds => ['m', 's']
  | .seconds => ['s']
  | .minutes => ['m']
  | .hours => ['h']
  | .none => []

def Unit.nanoseconds : Unit → Nat
  | .milliseconds => 1000000
  | .seconds | .none => 1000000000
  | .minutes => 60 * 1000000000
  | .hours => 3600 * 1000000000

theorem times_eq (n : Nat) (unit : Unit) : unit.times n = ⟨n * unit.nanoseconds⟩ := by
  cases unit <;> simp only [Unit.times, Unit.nanoseconds, ofMilliseconds, ofSeconds, Nat.mul_assoc]

/-- Taking a text apart loses nothing. -/
theorem append_suffix_of_splitUnit (h : splitUnit text = (number, unit)) :
    text = number ++ unit.suffix := by
  rw [splitUnit] at h
  split at h
  all_goals
    cases h
    simp_all [List.reverse_eq_iff, Unit.suffix]

/-- A text is taken apart where a number ends. -/
theorem splitUnit_append (h : IsWhole number n) (unit : Unit) :
    splitUnit (number ++ unit.suffix) = (number, unit) := by
  obtain ⟨front, c, rfl, hc⟩ := h.exists_last
  have hne : ∀ letter, Text.isDigit letter = false → c ≠ letter := by
    rintro letter hletter rfl
    rw [hc] at hletter
    cases hletter
  have hs := hne 's' rfl
  have hm := hne 'm' rfl
  have hh := hne 'h' rfl
  cases unit <;> simp [splitUnit, Unit.suffix, hs, hm, hh]

/-! ## The grammar -/

/-- The text says `n` of the unit: a whole number, the suffix of the unit right after it, and
blanks around the two. -/
def Written (text : List Char) (n : Nat) (unit : Unit) : Prop :=
  ∃ before number after, text = before ++ (number ++ unit.suffix) ++ after ∧
    (∀ c ∈ before, Text.isBlank c = true) ∧ (∀ c ∈ after, Text.isBlank c = true) ∧
    IsWhole number n

theorem not_blank_suffix {c : Char} (hc : c ∈ unit.suffix) : Text.isBlank c = false := by
  cases unit <;> simp only [Unit.suffix, List.mem_cons, List.not_mem_nil, or_false] at hc
  all_goals rcases hc with rfl | rfl <;> decide

theorem Written.splitUnit_trim (h : Written text n unit) :
    ∃ number, splitUnit (Text.trim text) = (number, unit) ∧ IsWhole number n := by
  obtain ⟨before, number, after, rfl, hbefore, hafter, hwhole⟩ := h
  have hne : number ++ unit.suffix ≠ [] := by
    obtain ⟨front, c, rfl, -⟩ := hwhole.exists_last
    simp
  have hbody : ∀ c ∈ number ++ unit.suffix, Text.isBlank c = false := fun c hc =>
    (List.mem_append.1 hc).elim hwhole.not_blank not_blank_suffix
  refine ⟨number, ?_, hwhole⟩
  rw [Text.trim_append hbefore hafter hne hbody, splitUnit_append hwhole]

theorem written_of_splitUnit_trim (h : splitUnit (Text.trim text) = (number, unit))
    (hwhole : IsWhole number n) : Written text n unit := by
  obtain ⟨before, after, htext, hbefore, hafter⟩ := Text.exists_blanks text
  refine ⟨before, number, after, ?_, hbefore, hafter, hwhole⟩
  rw [← append_suffix_of_splitUnit h]
  exact htext

theorem read_eq_ok_iff :
    read text = .ok d ↔
      ∃ n unit, Written text n unit ∧ n ≤ Text.maxWord ∧ d = ⟨n * unit.nanoseconds⟩ := by
  rw [read]
  constructor
  · intro h
    dsimp only at h
    split at h
    · next n hread =>
        cases h
        obtain ⟨hwhole, hle⟩ := Text.readNat_eq_ok_iff.1 hread
        exact ⟨n, _, written_of_splitUnit_trim rfl hwhole, hle, times_eq n _⟩
    · cases h
  · rintro ⟨n, unit, hwritten, hle, rfl⟩
    obtain ⟨number, hsplit, hwhole⟩ := hwritten.splitUnit_trim
    simp only [hsplit, Text.readNat_eq_ok_iff.2 ⟨hwhole, hle⟩, times_eq]

/-! ## Reading -/

/-- If the text says a number of minutes or of hours, the seconds of these fit a word too. -/
def SecondsFit (text : List Char) : Prop :=
  ∀ n ≤ Text.maxWord,
    (Written text n .minutes → n * 60 ≤ Text.maxWord) ∧
    (Written text n .hours → n * 3600 ≤ Text.maxWord)

/-- Whole seconds are no longer than a duration can be if a word counts them. -/
theorem seconds_le_longest_iff (n : Nat) :
    n * 1000000000 ≤ longest.nanoseconds ↔ n ≤ Text.maxWord := by
  show n * 1000000000 ≤ Text.maxWord * 1000000000 + 999999999 ↔ n ≤ Text.maxWord
  omega

/-- What is read is no longer than a duration can be. -/
theorem SecondsFit.read_le (hfit : SecondsFit text) (h : read text = .ok d) :
    d.nanoseconds ≤ longest.nanoseconds := by
  obtain ⟨n, unit, hwritten, hn, rfl⟩ := read_eq_ok_iff.1 h
  have hseconds := (seconds_le_longest_iff n).2 hn
  cases unit with
  | milliseconds =>
      exact Nat.le_trans (Nat.mul_le_mul_left n (by decide : 1000000 ≤ 1000000000)) hseconds
  | seconds | none => exact hseconds
  | minutes =>
      rw [Unit.nanoseconds, ← Nat.mul_assoc, seconds_le_longest_iff]
      exact (hfit n hn).1 hwritten
  | hours =>
      rw [Unit.nanoseconds, ← Nat.mul_assoc, seconds_le_longest_iff]
      exact (hfit n hn).2 hwritten

/-- The grammar is unambiguous: a text says one number of one unit. -/
theorem Written.unique {n' : Nat} {unit' : Unit} (h : Written text n unit)
    (h' : Written text n' unit') : n = n' ∧ unit = unit' := by
  obtain ⟨number, hsplit, hwhole⟩ := h.splitUnit_trim
  obtain ⟨number', hsplit', hwhole'⟩ := h'.splitUnit_trim
  cases hsplit.symm.trans hsplit'
  have hn := Text.readNat_eq_ok_iff.2 ⟨hwhole, Nat.le_max_left n n'⟩
  have hn' := Text.readNat_eq_ok_iff.2 ⟨hwhole', Nat.le_max_right n n'⟩
  cases hn.symm.trans hn'
  exact ⟨rfl, rfl⟩

/-- A text is read as a duration exactly if it says a number of a unit and the number fits a
word, and the duration is that many of the unit. Of texts in minutes or in hours only those are
spoken of whose seconds fit a word as well, and so no duration is longer than a duration can be.
The same number of seconds said in hours, in minutes, in seconds or without a unit is the same
duration, and all four texts are accepted if the last one is. -/
theorem read_exact (hfit : SecondsFit text) :
    (∀ d, read text = .ok d ↔
      ∃ n unit, Written text n unit ∧ n ≤ Text.maxWord ∧ d = ⟨n * unit.nanoseconds⟩) ∧
    (∀ d, read text = .ok d → d.nanoseconds ≤ longest.nanoseconds) ∧
    ∀ n minutes seconds bare, Written text n .hours → Written minutes (60 * n) .minutes →
      Written seconds (3600 * n) .seconds → Written bare (3600 * n) .none →
      ∀ d, read bare = .ok d →
        read text = .ok d ∧ read minutes = .ok d ∧ read seconds = .ok d := by
  refine ⟨fun d => read_eq_ok_iff, fun d => hfit.read_le, ?_⟩
  intro n minutes seconds bare hhours hminutes hseconds hbare d hread
  obtain ⟨seconds', unit, hwritten, hword, rfl⟩ := read_eq_ok_iff.1 hread
  obtain ⟨rfl, rfl⟩ := hwritten.unique hbare
  refine ⟨read_eq_ok_iff.2 ⟨n, .hours, hhours, by omega, ?_⟩,
    read_eq_ok_iff.2 ⟨60 * n, .minutes, hminutes, by omega, ?_⟩,
    read_eq_ok_iff.2 ⟨3600 * n, .seconds, hseconds, hword, rfl⟩⟩
  all_goals
    simp only [Unit.nanoseconds, mk.injEq]
    omega

theorem read_exact_padded :
    let text := "\u2003+0025h\n".toList
    let d : Duration := ⟨90000 * 1000000000⟩
    SecondsFit text ∧ read text = .ok d ∧ read "1500m".toList = .ok d ∧
      read " 90000s".toList = .ok d ∧ read "+90000".toList = .ok d ∧
      d.nanoseconds ≤ longest.nanoseconds := by
  intro text d
  have hours : Written text 25 .hours :=
    ⟨['\u2003'], ['+', '0', '0', '2', '5'], ['\n'], rfl, List.all_eq_true.1 rfl,
      List.all_eq_true.1 rfl, ['+'], ['0', '0', '2', '5'], rfl, .inr rfl, by simp,
      List.all_eq_true.1 rfl, rfl⟩
  have minutes : Written "1500m".toList (60 * 25) .minutes :=
    ⟨[], ['1', '5', '0', '0'], [], rfl, List.forall_mem_nil _, List.forall_mem_nil _,
      [], ['1', '5', '0', '0'], rfl, .inl rfl, by simp, List.all_eq_true.1 rfl, rfl⟩
  have seconds : Written " 90000s".toList (3600 * 25) .seconds :=
    ⟨[' '], ['9', '0', '0', '0', '0'], [], rfl, List.all_eq_true.1 rfl, List.forall_mem_nil _,
      [], ['9', '0', '0', '0', '0'], rfl, .inl rfl, by simp, List.all_eq_true.1 rfl, rfl⟩
  have bare : Written "+90000".toList (3600 * 25) .none :=
    ⟨[], ['+', '9', '0', '0', '0', '0'], [], rfl, List.forall_mem_nil _, List.forall_mem_nil _,
      ['+'], ['9', '0', '0', '0', '0'], rfl, .inr rfl, by simp, List.all_eq_true.1 rfl, rfl⟩
  have hfit : SecondsFit text := by
    intro n _
    constructor
    · intro hwritten
      cases (hwritten.unique hours).2
    · intro hwritten
      rw [(hwritten.unique hours).1]
      decide
  have hbare : read "+90000".toList = .ok d := by decide
  obtain ⟨-, hle, hsame⟩ := read_exact hfit
  obtain ⟨htext, hminutes, hseconds⟩ := hsame 25 _ _ _ hours minutes seconds bare d hbare
  exact ⟨hfit, htext, hminutes, hseconds, hbare, hle d htext⟩

end Duration

end SharedState
