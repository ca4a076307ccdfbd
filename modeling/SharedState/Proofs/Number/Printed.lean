import SharedState.Number.Style
import SharedState.Proofs.Number.Nearest

/-!
# Printed numbers are read back

Every finite magnitude is written by a decimal that rounds to it, whichever of
the shorter ones the search finds and also if it finds none, and every style
writes a decimal by a numeral for the same number. So what is written is read
as the magnitude again, by `Format.nearestDecimal_congr`; nothing has to be
known of how short the decimal is.

The other thing to be known of a numeral is that it has the form that readers
ask for: digits before the point, of which the first is no zero unless it is the
only one.
-/

namespace SharedState

/-! ## Digits -/

namespace Text

theorem ofDigits_append (start : Nat) (digits more : List Char) :
    ofDigits start (digits ++ more) = ofDigits (ofDigits start digits) more :=
  List.foldl_append

theorem ofDigits_toDigits (n : Nat) : ofDigits 0 (toDigits n) = n :=
  Nat.ofDigitChars_ten_toDigits

theorem ofDigits_zeros (start k : Nat) :
    ofDigits start (List.replicate k '0') = start * 10 ^ k := by
  rw [Nat.mul_comm]
  exact Nat.ofDigitChars_replicate_zero

theorem toDigits_ne_nil (n : Nat) : toDigits n ≠ [] := Nat.toDigits_ne_nil

theorem isDigit_of_mem_toDigits {n : Nat} {c : Char} (h : c ∈ toDigits n) : isDigit c = true :=
  Nat.isDigit_of_mem_toDigits (by decide) (by decide) h

/-- A number other than zero is not written with a zero at the start. -/
theorem head?_toDigits_ne {n : Nat} (h : n ≠ 0) : (toDigits n).head? ≠ some '0' := by
  induction n using Nat.strongRecOn with
  | ind n ih =>
      rw [toDigits, Nat.toDigits_eq_if (by decide)]
      split
      · next hlt =>
          have hall : ∀ n < 10, n ≠ 0 → n.digitChar ≠ '0' := by decide
          simpa using hall n hlt h
      · next hge =>
          have hrest := ih (n / 10) (Nat.div_lt_self (Nat.pos_of_ne_zero h) (by decide)) (by omega)
          rw [List.head?_append]
          cases hd : (Nat.toDigits 10 (n / 10)).head? with
          | none => exact absurd (List.head?_eq_none_iff.1 hd) Nat.toDigits_ne_nil
          | some c => rwa [toDigits, hd] at hrest

end Text

/-! ## The shortest decimal -/

namespace Decimal

theorem value_reduceBy (fuel : Nat) (d : Decimal) : (d.reduceBy fuel).value = d.value := by
  induction fuel generalizing d with
  | zero => rfl
  | succ fuel ih =>
      rw [reduceBy]
      split
      · next h =>
          rw [ih]
          have hten : ((d.coefficient / 10 : Nat) : ℚ) * 10 = d.coefficient := by
            exact_mod_cast Nat.div_mul_cancel (Nat.dvd_of_mod_eq_zero h.2)
          rw [value, value, zpow_add₀ (by norm_num), zpow_one, mul_comm (_ ^ _), ← mul_assoc, hten]
      · rfl

theorem value_reduce (d : Decimal) : d.reduce.value = d.value := value_reduceBy _ d

end Decimal

namespace Format

variable {f : Format} {place : Nat}

theorem value_exactDecimal (f : Format) (place : Nat) :
    (f.exactDecimal place).value = f.value place := by
  rw [exactDecimal, value]
  generalize f.unfold place = u
  obtain ⟨sig, e⟩ := u
  dsimp only
  split
  · next h =>
      obtain ⟨k, rfl⟩ := Int.eq_ofNat_of_zero_le h
      rw [Decimal.value, Nat.shiftLeft_eq]
      simp
  · next h =>
      obtain ⟨k, hk⟩ := Int.eq_ofNat_of_zero_le (show 0 ≤ -e by omega)
      have he : e = -(k : Int) := by omega
      have hten : (10 : ℚ) ^ k = 2 ^ k * 5 ^ k := by
        rw [← mul_pow]
        norm_num
      have hfive : (5 : ℚ) ^ k ≠ 0 := by positivity
      rw [he, neg_neg, Int.toNat_natCast]
      show ((sig * 5 ^ k : Nat) : ℚ) * 10 ^ (-(k : Int)) = _
      rw [zpow_neg, zpow_neg, zpow_natCast, zpow_natCast, hten, mul_inv]
      push_cast
      field_simp

/-- A neighbour is only taken if it reads back. -/
theorem nearestDecimal_of_neighbour? {tie : Tie} {unit : Int} {d : Decimal}
    (h : f.neighbour? tie place unit = some d) : f.nearestDecimal d = place := by
  simp only [neighbour?] at h
  split at h
  · next habove =>
      cases h
      exact habove.1.2
  · split at h
    · next hbelow =>
        cases h
        exact hbelow
    · cases h

/-- The decimal that a magnitude is written by rounds to it. -/
theorem nearestDecimal_shortest (tie : Tie) (h : place ≤ f.infinity) :
    f.nearestDecimal (f.shortest tie place) = place := by
  rw [shortest]
  split
  · next hzero =>
      rw [hzero]
      rfl
  · refine (nearestDecimal_congr (Decimal.value_reduce _)).trans ?_
    dsimp only
    -- none of the shorter decimals has to be there: the exact one is the last resort
    cases hfound : (List.range 17).findSome? _ with
    | none => exact nearestDecimal_of_eq_value h (value_exactDecimal f place)
    | some d =>
        obtain ⟨more, -, hd⟩ := List.exists_of_findSome?_eq_some hfound
        exact nearestDecimal_of_neighbour? hd

/-- No digits but those of zero itself start with a zero. -/
theorem coefficient_shortest (tie : Tie) (h : place ≤ f.infinity) :
    (f.shortest tie place).coefficient ≠ 0 ∨ f.shortest tie place = ⟨0, 0⟩ := by
  by_cases hzero : place = 0
  · right
    rw [shortest, if_pos hzero]
  · left
    intro hc
    apply hzero
    rw [← nearestDecimal_shortest tie h, nearestDecimal, if_pos hc]

end Format

/-! ## Numerals -/

/-- The form of a numeral that readers ask for. -/
structure Numeral.Printable (n : Numeral) : Prop where
  nonempty : n.whole ≠ []
  whole : ∀ c ∈ n.whole, Text.isDigit c = true
  leading : n.whole = ['0'] ∨ n.whole.head? ≠ some '0'
  fraction : ∀ c ∈ n.fraction, Text.isDigit c = true

namespace NumberStyle

open Text

variable {style : NumberStyle} {d : Decimal}

theorem toDecimal_eq (n : Numeral) :
    n.toDecimal = ⟨ofDigits 0 (n.whole ++ n.fraction), n.exponent.getD 0 - n.fraction.length⟩ := by
  rw [Numeral.toDecimal, ofDigits_append]

theorem value_positional (style : NumberStyle) (d : Decimal) :
    (style.positional (toDigits d.coefficient) d.exponent).toDecimal.value = d.value := by
  rw [positional, toDecimal_eq]
  split
  · next h =>
      obtain ⟨k, hk⟩ := Int.eq_ofNat_of_zero_le h
      have hwhole : ofDigits 0 (toDigits d.coefficient ++ List.replicate k '0') =
          d.coefficient * 10 ^ k := by
        rw [ofDigits_append, ofDigits_toDigits, ofDigits_zeros]
      cases style.pointZero with
      | false =>
          simp only [Decimal.value, hk, Int.toNat_natCast, if_false, Bool.false_eq_true,
            List.append_nil, hwhole]
          simp
      | true =>
          have hpoint : ofDigits (d.coefficient * 10 ^ k) ['0'] = d.coefficient * 10 ^ k * 10 :=
            ofDigits_zeros _ 1
          simp only [Decimal.value, hk, Int.toNat_natCast, if_true, ofDigits_append _ _ ['0'],
            hwhole, hpoint]
          simp
  · next h =>
      have hplaces : (0 : Int) - ((-d.exponent).toNat : Nat) = d.exponent := by omega
      refine congrArg Decimal.value ?_
      split
      · next hlt =>
          rw [List.take_append_drop, ofDigits_toDigits, List.length_drop, Nat.sub_sub_self hlt.le]
          exact congrArg (Decimal.mk _) hplaces
      · next hge =>
          have hzeros : ofDigits 0 (['0'] ++ (List.replicate
              ((-d.exponent).toNat - (toDigits d.coefficient).length) '0' ++
                toDigits d.coefficient)) = d.coefficient := by
            rw [← List.append_assoc, ofDigits_append, ofDigits_append, ofDigits_zeros]
            show ofDigits (0 * _) _ = _
            rw [Nat.zero_mul, ofDigits_toDigits]
          rw [hzeros, List.length_append, List.length_replicate,
            Nat.sub_add_cancel (Nat.not_lt.1 hge)]
          exact congrArg (Decimal.mk _) hplaces

/-- A numeral is for the decimal that it was made from. -/
theorem value_numeral (style : NumberStyle) (d : Decimal) :
    (style.numeral d).toDecimal.value = d.value := by
  rw [numeral]
  split
  · exact value_positional style d
  · have hpos := List.length_pos_iff.2 (toDigits_ne_nil d.coefficient)
    rw [toDecimal_eq, List.take_append_drop, ofDigits_toDigits, List.length_drop, Option.getD_some]
    congr 2
    omega

theorem isDigit_of_mem_zeros {k : Nat} {c : Char} (h : c ∈ List.replicate k '0') :
    isDigit c = true := by
  rw [List.eq_of_mem_replicate h]
  rfl

/-- The digits of a number other than zero make a numeral wherever the point
and the exponent are put. -/
theorem printable_of_prefix {n k : Nat} (hn : n ≠ 0) (hk : 0 < k) (zeros : Nat)
    {fraction : List Char} (hfraction : ∀ c ∈ fraction, isDigit c = true) (exponent : Option Int) :
    Numeral.Printable ⟨(toDigits n).take k ++ List.replicate zeros '0', fraction, exponent⟩ := by
  have hhead : ((toDigits n).take k ++ List.replicate zeros '0').head? =
      (toDigits n).head? := by
    rw [List.head?_append, List.head?_take, if_neg hk.ne']
    cases hd : (toDigits n).head? with
    | none => exact absurd (List.head?_eq_none_iff.1 hd) (toDigits_ne_nil n)
    | some c => rfl
  refine ⟨?_, ?_, .inr ?_, hfraction⟩
  · intro (hnil : (toDigits n).take k ++ List.replicate zeros '0' = [])
    rw [hnil] at hhead
    exact toDigits_ne_nil n (List.head?_eq_none_iff.1 hhead.symm)
  · intro c hc
    rcases List.mem_append.1 hc with hc | hc
    · exact isDigit_of_mem_toDigits (List.mem_of_mem_take hc)
    · exact isDigit_of_mem_zeros hc
  · rw [hhead]
    exact head?_toDigits_ne hn

theorem printable_positional (hc : d.coefficient ≠ 0) :
    (style.positional (toDigits d.coefficient) d.exponent).Printable := by
  have hdrop : ∀ k, ∀ c ∈ (toDigits d.coefficient).drop k, isDigit c = true :=
    fun k c hc => isDigit_of_mem_toDigits (List.mem_of_mem_drop hc)
  rw [positional]
  split
  · have hpoint : ∀ c ∈ (if style.pointZero then ['0'] else []), isDigit c = true := by
      cases style.pointZero <;> simp [isDigit]
    have hwhole := printable_of_prefix hc (List.length_pos_iff.2 (toDigits_ne_nil d.coefficient))
      d.exponent.toNat hpoint none
    rwa [List.take_length] at hwhole
  · split
    · next hlt =>
        have hwhole := printable_of_prefix hc (Nat.sub_pos_of_lt hlt) 0
          (hdrop ((toDigits d.coefficient).length - (-d.exponent).toNat)) none
        rwa [List.replicate_zero, List.append_nil] at hwhole
    · refine ⟨nofun, ?_, .inl rfl, ?_⟩
      · intro c hc
        rw [List.mem_singleton.1 hc]
        rfl
      · intro c hc
        rcases List.mem_append.1 hc with hc | hc
        · exact isDigit_of_mem_zeros hc
        · exact isDigit_of_mem_toDigits hc

theorem printable_numeral (style : NumberStyle) (h : d.coefficient ≠ 0 ∨ d = ⟨0, 0⟩) :
    (style.numeral d).Printable := by
  rcases h with hc | rfl
  · rw [numeral]
    split
    · exact printable_positional hc
    · have hrest : ∀ c ∈ (toDigits d.coefficient).drop 1, isDigit c = true :=
        fun c hc => isDigit_of_mem_toDigits (List.mem_of_mem_drop hc)
      have hwhole := printable_of_prefix hc Nat.one_pos 0 hrest
        (some (d.exponent + (toDigits d.coefficient).length - 1))
      rwa [List.replicate_zero, List.append_nil] at hwhole
  · have hwhole : ∀ fraction, (∀ c ∈ fraction, isDigit c = true) → ∀ exponent,
        Numeral.Printable ⟨['0'], fraction, exponent⟩ := by
      intro fraction hfraction exponent
      refine ⟨nofun, ?_, .inl rfl, hfraction⟩
      intro c hc
      rw [List.mem_singleton.1 hc]
      rfl
    rw [numeral]
    split
    · refine hwhole _ ?_ none
      intro c hc
      split at hc
      · rw [List.mem_singleton.1 hc]
        rfl
      · cases hc
    · exact hwhole [] (fun _ hc => nomatch hc) _

end NumberStyle

end SharedState
