import Mathlib
import SharedState.Number.Rounding

/-!
# Rounding what needs no rounding

A magnitude that a format has is what it is rounded to. The rounding of
`Format.nearest` works on quotients of natural numbers and on places, and the
statement about it is one about rational numbers: `Format.value` is the number
at a place, and a quotient that equals it is rounded to that place. From this
follows that numbers survive being widened: every single is a double, so
widening does not round, and narrowing then rounds a number that the format has.
-/

namespace SharedState

/-! ## Powers of two -/

theorem two_zpow_eq (e : Int) : (2 : ℚ) ^ e = 2 ^ e.toNat / 2 ^ (-e).toNat := by
  rcases Int.le_total 0 e with h | h
  · have hneg : (-e).toNat = 0 := by omega
    obtain ⟨k, rfl⟩ := Int.eq_ofNat_of_zero_le h
    rw [hneg, pow_zero, div_one]
    exact zpow_natCast 2 k
  · have hpos : e.toNat = 0 := by omega
    obtain ⟨k, hk⟩ := Int.eq_ofNat_of_zero_le (show 0 ≤ -e by omega)
    have he : e = -(k : Int) := by omega
    rw [hpos, pow_zero, he, zpow_neg, zpow_natCast, neg_neg, Int.toNat_natCast, one_div]

theorem two_zpow_pos (e : Int) : (0 : ℚ) < 2 ^ e := zpow_pos (by norm_num) e

theorem two_zpow_add (a b : Int) : (2 : ℚ) ^ (a + b) = 2 ^ a * 2 ^ b :=
  zpow_add₀ (by norm_num) a b

theorem two_zpow_lt_iff {a b : Int} : (2 : ℚ) ^ a < 2 ^ b ↔ a < b :=
  zpow_lt_zpow_iff_right₀ (by norm_num)

theorem scaled_eq (sig : Nat) (e : Int) :
    ((sig * 2 ^ e.toNat : Nat) : ℚ) / ((2 ^ (-e).toNat : Nat) : ℚ) = sig * 2 ^ e := by
  rw [two_zpow_eq e]
  push_cast
  ring

/-! ## The exponent of a quotient -/

theorem log2_bounds {n : Nat} (h : n ≠ 0) :
    (2 : ℚ) ^ (n.log2 : Int) ≤ n ∧ (n : ℚ) < 2 ^ ((n.log2 : Int) + 1) := by
  have hle : ((2 ^ n.log2 : Nat) : ℚ) ≤ n := Nat.cast_le.2 (Nat.log2_self_le h)
  have hlt : (n : ℚ) < ((2 ^ (n.log2 + 1) : Nat) : ℚ) := Nat.cast_lt.2 Nat.lt_log2_self
  push_cast at hle hlt
  refine ⟨?_, ?_⟩
  · rw [zpow_natCast]
    exact hle
  · rw [show (n.log2 : Int) + 1 = ((n.log2 + 1 : Nat) : Int) by omega, zpow_natCast]
    exact hlt

theorem two_zpow_le_div_iff {num den : Nat} (hd : den ≠ 0) (g : Int) :
    (2 : ℚ) ^ g ≤ num / den ↔ den * 2 ^ g.toNat ≤ num * 2 ^ (-g).toNat := by
  have hden : (0 : ℚ) < den := by
    have := Nat.pos_of_ne_zero hd
    exact_mod_cast this
  have hpow : (0 : ℚ) < 2 ^ (-g).toNat := by positivity
  rw [two_zpow_eq g, div_le_div_iff₀ hpow hden, mul_comm _ (den : ℚ)]
  exact_mod_cast Iff.rfl

/-- The largest power of two that is at most a quotient. -/
theorem floorLog2_spec {num den : Nat} (hn : num ≠ 0) (hd : den ≠ 0) :
    (2 : ℚ) ^ floorLog2 num den ≤ num / den ∧
      (num / den : ℚ) < 2 ^ (floorLog2 num den + 1) := by
  have hden : (0 : ℚ) < den := by
    have := Nat.pos_of_ne_zero hd
    exact_mod_cast this
  obtain ⟨hnle, hnlt⟩ := log2_bounds hn
  obtain ⟨hdle, hdlt⟩ := log2_bounds hd
  -- the quotient lies less than a power of two from the guess, on either side
  have hlow : (2 : ℚ) ^ ((num.log2 : Int) - den.log2 - 1) ≤ num / den := by
    rw [le_div_iff₀ hden]
    calc (2 : ℚ) ^ ((num.log2 : Int) - den.log2 - 1) * den
        ≤ 2 ^ ((num.log2 : Int) - den.log2 - 1) * 2 ^ ((den.log2 : Int) + 1) :=
          mul_le_mul_of_nonneg_left hdlt.le (two_zpow_pos _).le
      _ = 2 ^ (num.log2 : Int) := by
          rw [← two_zpow_add]
          congr 1
          omega
      _ ≤ num := hnle
  have hhigh : (num / den : ℚ) < 2 ^ ((num.log2 : Int) - den.log2 + 1) := by
    rw [div_lt_iff₀ hden]
    calc (num : ℚ) < 2 ^ ((num.log2 : Int) + 1) := hnlt
      _ = 2 ^ ((num.log2 : Int) - den.log2 + 1) * 2 ^ (den.log2 : Int) := by
          rw [← two_zpow_add]
          congr 1
          omega
      _ ≤ 2 ^ ((num.log2 : Int) - den.log2 + 1) * den :=
          mul_le_mul_of_nonneg_left hdle (two_zpow_pos _).le
  unfold floorLog2
  simp only [Nat.shiftLeft_eq, ← two_zpow_le_div_iff hd]
  split
  · next h => exact ⟨h, hhigh⟩
  · next h =>
      refine ⟨hlow, ?_⟩
      rw [Int.sub_add_cancel]
      exact not_le.1 h

theorem floorLog2_eq {num den : Nat} (hn : num ≠ 0) (hd : den ≠ 0) {k : Int}
    (hlow : (2 : ℚ) ^ k ≤ num / den) (hhigh : (num / den : ℚ) < 2 ^ (k + 1)) :
    floorLog2 num den = k := by
  obtain ⟨h, h'⟩ := floorLog2_spec hn hd
  have hle := two_zpow_lt_iff.1 (h.trans_lt hhigh)
  have hge := two_zpow_lt_iff.1 (hlow.trans_lt h')
  omega

/-! ## Rounding to a place -/

theorem roundHalfEven_mul (n : Nat) {den : Nat} (hd : den ≠ 0) :
    roundHalfEven (n * den) den = n := by
  have hpos := Nat.pos_of_ne_zero hd
  simp only [roundHalfEven, Nat.mul_div_cancel n hpos, Nat.mul_mod_left]
  rw [if_pos (by omega)]

namespace Format

variable {f : Format}

theorem infinity_eq (f : Format) : f.infinity = f.ranges * 2 ^ f.fractionBits :=
  Nat.shiftLeft_eq _ _

theorem unfold_eq (f : Format) (place : Nat) :
    f.unfold place =
      if place < 2 ^ f.fractionBits then (place, f.lowest)
      else (2 ^ f.fractionBits + place % 2 ^ f.fractionBits,
        f.lowest + (place / 2 ^ f.fractionBits : Nat) - 1) := by
  simp only [unfold, Nat.one_shiftLeft]

/-- The magnitude at a place below infinity. -/
def value (f : Format) (place : Nat) : ℚ :=
  (f.unfold place).1 * 2 ^ (f.unfold place).2

theorem place_ranges (f : Format) (place : Nat) :
    place < 2 ^ f.fractionBits ∧ f.unfold place = (place, f.lowest) ∨
      ∃ range rest, rest < 2 ^ f.fractionBits ∧
        place = (range + 1) * 2 ^ f.fractionBits + rest ∧
        f.unfold place = (2 ^ f.fractionBits + rest, f.lowest + range) := by
  by_cases h : place < 2 ^ f.fractionBits
  · exact .inl ⟨h, by rw [unfold_eq, if_pos h]⟩
  · have hpos : 0 < 2 ^ f.fractionBits := Nat.two_pow_pos _
    have hrange : 1 ≤ place / 2 ^ f.fractionBits :=
      (Nat.one_le_div_iff hpos).2 (Nat.not_lt.1 h)
    refine .inr ⟨place / 2 ^ f.fractionBits - 1, place % 2 ^ f.fractionBits,
      Nat.mod_lt _ hpos, ?_, ?_⟩
    · rw [Nat.sub_add_cancel hrange, Nat.mul_comm]
      exact (Nat.div_add_mod place _).symm
    · rw [unfold_eq, if_neg h]
      refine congrArg (Prod.mk _) ?_
      omega

theorem place_eq (f : Format) (place : Nat) :
    ((f.unfold place).2 - f.lowest).toNat * 2 ^ f.fractionBits + (f.unfold place).1 = place := by
  rcases f.place_ranges place with ⟨-, hu⟩ | ⟨range, rest, -, hplace, hu⟩
  · rw [hu, Int.sub_self]
    simp
  · have hexp : (f.lowest + (range : Int) - f.lowest).toNat = range := by omega
    rw [hu, hexp, hplace]
    ring

/-- The unit of the rounding of a magnitude of the format is that of the
magnitude itself. -/
theorem unit_eq (f : Format) {place : Nat} (h : place ≠ 0) :
    max f.lowest (((f.unfold place).1.log2 : Int) + (f.unfold place).2 - f.fractionBits) =
      (f.unfold place).2 := by
  rcases f.place_ranges place with ⟨hlt, hu⟩ | ⟨range, rest, hrest, -, hu⟩
  · have hlog := (Nat.log2_lt h).2 hlt
    rw [hu]
    show max f.lowest ((place.log2 : Int) + f.lowest - f.fractionBits) = f.lowest
    omega
  · have hne : 2 ^ f.fractionBits + rest ≠ 0 := by
      have := Nat.two_pow_pos f.fractionBits
      omega
    have hlog : (2 ^ f.fractionBits + rest).log2 = f.fractionBits := by
      rw [Nat.log2_eq_iff hne]
      rw [Nat.pow_succ]
      omega
    rw [hu]
    show max f.lowest ((((2 ^ f.fractionBits + rest).log2 : Nat) : Int) + _ - _) = _
    rw [hlog]
    omega

theorem value_eq_zero_iff {place : Nat} : f.value place = 0 ↔ place = 0 := by
  have hpow := (two_zpow_pos (f.unfold place).2).ne'
  rw [value, mul_eq_zero, Nat.cast_eq_zero, or_iff_left hpow]
  rcases f.place_ranges place with ⟨-, hu⟩ | ⟨range, rest, -, hplace, hu⟩
  · rw [hu]
  · have := Nat.two_pow_pos f.fractionBits
    rw [hu, hplace]
    constructor
    · intro h
      have hsig : 2 ^ f.fractionBits + rest = 0 := h
      omega
    · intro h
      have hzero : (range + 1) * 2 ^ f.fractionBits = 0 := by omega
      rcases Nat.mul_eq_zero.1 hzero with hr | hp <;> omega

theorem significand_ne_zero (f : Format) {place : Nat} (h : place ≠ 0) :
    (f.unfold place).1 ≠ 0 := by
  intro hzero
  apply h
  rw [← f.value_eq_zero_iff, value, hzero, Nat.cast_zero, zero_mul]

theorem unfold_bounds {place : Nat} (h : place < f.infinity) :
    (f.unfold place).1.log2 ≤ f.fractionBits ∧ f.lowest ≤ (f.unfold place).2 ∧
      (f.unfold place).2 < f.lowest + f.ranges := by
  have hpow := Nat.two_pow_pos f.fractionBits
  rcases f.place_ranges place with ⟨hlt, hu⟩ | ⟨range, rest, hrest, hplace, hu⟩
  · have hranges : 0 < f.ranges := by
      apply Nat.pos_of_ne_zero
      intro hzero
      rw [infinity_eq, hzero, Nat.zero_mul] at h
      omega
    have hlog : place.log2 ≤ f.fractionBits := by
      by_cases hzero : place = 0
      · rw [hzero, Nat.log2_zero]
        exact Nat.zero_le _
      · exact ((Nat.log2_lt hzero).2 hlt).le
    rw [hu]
    refine ⟨hlog, Int.le_refl _, ?_⟩
    show f.lowest < f.lowest + f.ranges
    omega
  · have hlast : (range + 1) * 2 ^ f.fractionBits < f.ranges * 2 ^ f.fractionBits := by
      rw [← infinity_eq]
      omega
    have hrange := Nat.lt_of_mul_lt_mul_right hlast
    have hlog : (2 ^ f.fractionBits + rest).log2 < f.fractionBits + 1 := by
      rw [Nat.log2_lt (by omega), Nat.pow_succ]
      omega
    rw [hu]
    refine ⟨Nat.le_of_lt_succ hlog, ?_, ?_⟩
    · show f.lowest ≤ f.lowest + range
      omega
    · show f.lowest + range < f.lowest + f.ranges
      omega

/-- A quotient that is a magnitude of the format is rounded to its place. -/
theorem nearest_of_eq_value {num den place : Nat} (hd : den ≠ 0) (hp : place ≤ f.infinity)
    (h : (num / den : ℚ) = f.value place) : f.nearest num den = place := by
  have hden : (den : ℚ) ≠ 0 := Nat.cast_ne_zero.2 hd
  by_cases hn : num = 0
  · have hzero : place = 0 := by
      rw [← f.value_eq_zero_iff, ← h, hn, Nat.cast_zero, zero_div]
    rw [nearest, if_pos hn, hzero]
  · have hplace : place ≠ 0 := by
      intro hzero
      rw [f.value_eq_zero_iff.2 hzero, div_eq_zero_iff, Nat.cast_eq_zero] at h
      exact h.elim hn hden
    have hsig := f.significand_ne_zero hplace
    obtain ⟨hlow, hhigh⟩ := log2_bounds hsig
    have hfloor : floorLog2 num den = ((f.unfold place).1.log2 : Int) + (f.unfold place).2 := by
      apply floorLog2_eq hn hd
      · rw [h, value, two_zpow_add]
        exact mul_le_mul_of_nonneg_right hlow (two_zpow_pos _).le
      · rw [h, value, add_right_comm, two_zpow_add]
        exact mul_lt_mul_of_pos_right hhigh (two_zpow_pos _)
    -- the number of units is the significand, without a rest
    have hunits : num * 2 ^ (-(f.unfold place).2).toNat =
        (f.unfold place).1 * (den * 2 ^ (f.unfold place).2.toNat) := by
      have hpow : ((2 : ℚ) ^ (-(f.unfold place).2).toNat) ≠ 0 := by positivity
      rw [value, two_zpow_eq, div_eq_iff hden, ← mul_div_assoc, div_mul_eq_mul_div,
        eq_div_iff hpow] at h
      have h' : ((num * 2 ^ (-(f.unfold place).2).toNat : Nat) : ℚ) =
          (((f.unfold place).1 * 2 ^ (f.unfold place).2.toNat * den : Nat) : ℚ) := by
        push_cast
        exact h
      rw [Nat.cast_inj.1 h']
      ring
    have hscale : den * 2 ^ (f.unfold place).2.toNat ≠ 0 :=
      Nat.mul_ne_zero hd (Nat.two_pow_pos _).ne'
    simp only [nearest, Nat.shiftLeft_eq, if_neg hn, hfloor, f.unit_eq hplace, hunits,
      roundHalfEven_mul _ hscale, f.place_eq]
    exact Nat.min_eq_right hp

/-! ## Between formats -/

theorem convertPlace_eq {g : Format} {place place' : Nat} (h : place < f.infinity)
    (h' : place' < g.infinity) (hv : g.value place' = f.value place) :
    f.convertPlace g place = place' := by
  rw [convertPlace, if_neg (Nat.not_le.2 h)]
  simp only [Nat.shiftLeft_eq, Nat.one_mul]
  refine nearest_of_eq_value (Nat.two_pow_pos _).ne' h'.le ?_
  rw [hv]
  exact scaled_eq (f.unfold place).1 (f.unfold place).2

/-- A place in the middle of a format, made from a significand that need not
have its leading bit in place. -/
theorem exists_place (g : Format) {sig : Nat} {e : Int} (hsig : sig ≠ 0)
    (hbits : sig.log2 ≤ g.fractionBits) (hlow : g.lowest + g.fractionBits ≤ sig.log2 + e)
    (hhigh : sig.log2 + e + 1 < g.lowest + g.fractionBits + g.ranges) :
    ∃ place < g.infinity, g.value place = sig * 2 ^ e := by
  obtain ⟨shift, hshift⟩ := Nat.exists_eq_add_of_le hbits
  obtain ⟨range, hrange⟩ := Int.eq_ofNat_of_zero_le
    (show 0 ≤ (sig.log2 : Int) + e - g.fractionBits - g.lowest by omega)
  have hbelow := Nat.log2_self_le hsig
  have habove := Nat.lt_log2_self (n := sig)
  have hpow : 2 ^ g.fractionBits = 2 ^ sig.log2 * 2 ^ shift := by rw [hshift, Nat.pow_add]
  have hrest : 2 ^ g.fractionBits ≤ sig * 2 ^ shift := by
    rw [hpow]
    exact Nat.mul_le_mul_right _ hbelow
  have hrest' : sig * 2 ^ shift < 2 * 2 ^ g.fractionBits := by
    rw [hpow, ← Nat.mul_assoc, Nat.mul_comm 2, ← Nat.pow_succ]
    exact Nat.mul_lt_mul_of_pos_right habove (Nat.two_pow_pos _)
  have hplace : (range + 1) * 2 ^ g.fractionBits + (sig * 2 ^ shift - 2 ^ g.fractionBits) =
      range * 2 ^ g.fractionBits + sig * 2 ^ shift := by
    rw [Nat.add_mul, Nat.one_mul]
    omega
  refine ⟨range * 2 ^ g.fractionBits + sig * 2 ^ shift, ?_, ?_⟩
  · have hlast : range + 2 ≤ g.ranges := by omega
    calc range * 2 ^ g.fractionBits + sig * 2 ^ shift
        < range * 2 ^ g.fractionBits + 2 * 2 ^ g.fractionBits := by omega
      _ = (range + 2) * 2 ^ g.fractionBits := by rw [Nat.add_mul]
      _ ≤ g.ranges * 2 ^ g.fractionBits := Nat.mul_le_mul_right _ hlast
      _ = g.infinity := g.infinity_eq.symm
  · have hunfold : g.unfold (range * 2 ^ g.fractionBits + sig * 2 ^ shift) =
        (sig * 2 ^ shift, g.lowest + range) := by
      rw [← hplace, unfold_eq, if_neg (by rw [Nat.add_mul]; omega)]
      have hlt : sig * 2 ^ shift - 2 ^ g.fractionBits < 2 ^ g.fractionBits := by omega
      rw [Nat.mul_comm, Nat.mul_add_mod, Nat.mod_eq_of_lt hlt,
        Nat.mul_add_div (Nat.two_pow_pos _), Nat.div_eq_of_lt hlt]
      refine Prod.ext ?_ ?_
      · show 2 ^ g.fractionBits + (sig * 2 ^ shift - 2 ^ g.fractionBits) = sig * 2 ^ shift
        omega
      · show g.lowest + ((range + 1 + 0 : Nat) : Int) - 1 = g.lowest + range
        omega
    have he : e = shift + (g.lowest + range) := by omega
    rw [value, hunfold, he, two_zpow_add shift (g.lowest + range), zpow_natCast]
    push_cast
    ring

theorem exists_double {place : Nat} (h : place < single.infinity) :
    ∃ place' < double.infinity, double.value place' = single.value place := by
  by_cases hp : place = 0
  · refine ⟨0, by decide, ?_⟩
    rw [hp, single.value_eq_zero_iff.2 rfl, double.value_eq_zero_iff.2 rfl]
  · have hsig := single.significand_ne_zero hp
    obtain ⟨hbits, hlow, hhigh⟩ := unfold_bounds h
    unfold value
    generalize (single.unfold place).1 = sig at hsig hbits ⊢
    generalize (single.unfold place).2 = e at hlow hhigh ⊢
    simp only [single] at hbits hlow hhigh
    refine double.exists_place hsig ?_ ?_ ?_
    · simp only [double]
      omega
    · simp only [double]
      omega
    · simp only [double]
      omega

end Format

namespace Binary

/-- Narrowing undoes widening. -/
theorem narrow_widen (x : Single) : x.widen.narrow = x := by
  cases x with
  | nan => rfl
  | number negative place =>
      obtain ⟨place, hlt⟩ := place
      simp only [widen, narrow, convert, atPlace]
      congr 2
      rcases Nat.lt_succ_iff_lt_or_eq.1 hlt with h | h
      · obtain ⟨place', h', hv⟩ := Format.exists_double h
        rw [Format.convertPlace_eq h h' hv, Nat.min_eq_right h'.le,
          Format.convertPlace_eq h' h hv.symm]
        exact Nat.min_eq_right h.le
      · subst h
        simp [Format.convertPlace]

end Binary

end SharedState
