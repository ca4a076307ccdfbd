import SharedState.Number.Decimal
import SharedState.Proofs.Number.Exact

/-!
# Rounding depends on the number and not on its writing

The place that a quotient is rounded to is a function of the rational number,
and so is the place that a decimal is rounded to: the bounds that sort out very
large and very small decimals before any power of ten is computed never say
anything else than the rounding would. `nearestDecimal_congr` is what a reader
of numerals needs: two numerals for one number are read as one magnitude.
-/

namespace SharedState

/-- The number that a decimal denotes. -/
def Decimal.value (d : Decimal) : ℚ := d.coefficient * 10 ^ d.exponent

theorem ten_zpow_eq (e : Int) : (10 : ℚ) ^ e = 10 ^ e.toNat / 10 ^ (-e).toNat := by
  rcases Int.le_total 0 e with h | h
  · have hneg : (-e).toNat = 0 := by omega
    obtain ⟨k, rfl⟩ := Int.eq_ofNat_of_zero_le h
    rw [hneg, pow_zero, div_one]
    exact zpow_natCast 10 k
  · have hpos : e.toNat = 0 := by omega
    obtain ⟨k, hk⟩ := Int.eq_ofNat_of_zero_le (show 0 ≤ -e by omega)
    have he : e = -(k : Int) := by omega
    rw [hpos, pow_zero, he, zpow_neg, zpow_natCast, neg_neg, Int.toNat_natCast, one_div]

theorem Decimal.value_eq (d : Decimal) :
    d.value = ((d.coefficient * 10 ^ d.exponent.toNat : Nat) : ℚ) /
      ((10 ^ (-d.exponent).toNat : Nat) : ℚ) := by
  rw [value, ten_zpow_eq, mul_div_assoc']
  push_cast
  rfl

/-! ## Quotients -/

theorem roundHalfEven_mul_right (num den : Nat) {k : Nat} (hk : k ≠ 0) :
    roundHalfEven (num * k) (den * k) = roundHalfEven num den := by
  have hpos := Nat.pos_of_ne_zero hk
  have hcancel : ∀ a b : Nat, 2 * (a * k) < b * k ↔ 2 * a < b := by
    intro a b
    rw [← Nat.mul_assoc]
    exact Nat.mul_lt_mul_right hpos
  have hcancel' : ∀ a b : Nat, b * k < 2 * (a * k) ↔ b < 2 * a := by
    intro a b
    rw [← Nat.mul_assoc]
    exact Nat.mul_lt_mul_right hpos
  simp only [roundHalfEven, Nat.mul_div_mul_right _ _ hpos, Nat.mul_mod_mul_right, hcancel,
    hcancel']

theorem roundHalfEven_congr {num den num' den' : Nat} (hd : den ≠ 0) (hd' : den' ≠ 0)
    (h : num * den' = num' * den) : roundHalfEven num den = roundHalfEven num' den' := by
  rw [← roundHalfEven_mul_right num den hd', ← roundHalfEven_mul_right num' den' hd, h,
    Nat.mul_comm den den']

theorem div_le_roundHalfEven (num den : Nat) : num / den ≤ roundHalfEven num den := by
  simp only [roundHalfEven]
  split
  · exact Nat.le_refl _
  · split <;> omega

theorem roundHalfEven_of_lt {num den : Nat} (h : 2 * num < den) : roundHalfEven num den = 0 := by
  have hlt : num < den := by omega
  simp only [roundHalfEven, Nat.div_eq_of_lt hlt, Nat.mod_eq_of_lt hlt, if_pos h]

theorem cross_eq_iff {num den num' den' : Nat} (hd : den ≠ 0) (hd' : den' ≠ 0) :
    (num / den : ℚ) = num' / den' ↔ num * den' = num' * den := by
  have hden : (den : ℚ) ≠ 0 := Nat.cast_ne_zero.2 hd
  have hden' : (den' : ℚ) ≠ 0 := Nat.cast_ne_zero.2 hd'
  rw [div_eq_div_iff hden hden']
  exact_mod_cast Iff.rfl

namespace Format

variable {f : Format} {num den num' den' : Nat}

theorem nearest_congr (hd : den ≠ 0) (hd' : den' ≠ 0) (h : (num / den : ℚ) = num' / den') :
    f.nearest num den = f.nearest num' den' := by
  have hcross := (cross_eq_iff hd hd').1 h
  by_cases hn : num = 0
  · have hn' : num' = 0 := by
      rw [hn, Nat.zero_mul] at hcross
      exact (Nat.mul_eq_zero.1 hcross.symm).resolve_right hd
    rw [hn, hn', nearest, nearest, if_pos rfl, if_pos rfl]
  · have hn' : num' ≠ 0 := by
      intro hzero
      rw [hzero, Nat.zero_mul] at hcross
      exact (Nat.mul_ne_zero hn hd') hcross
    have hfloor : floorLog2 num den = floorLog2 num' den' := by
      obtain ⟨hlow, hhigh⟩ := floorLog2_spec hn' hd'
      rw [← h] at hlow hhigh
      exact floorLog2_eq hn hd hlow hhigh
    simp only [nearest, if_neg hn, if_neg hn', hfloor, Nat.shiftLeft_eq]
    generalize max f.lowest (floorLog2 num' den' - f.fractionBits) = unit
    have hunits : roundHalfEven (num * 2 ^ (-unit).toNat) (den * 2 ^ unit.toNat) =
        roundHalfEven (num' * 2 ^ (-unit).toNat) (den' * 2 ^ unit.toNat) := by
      apply roundHalfEven_congr
      · exact Nat.mul_ne_zero hd (Nat.two_pow_pos _).ne'
      · exact Nat.mul_ne_zero hd' (Nat.two_pow_pos _).ne'
      · rw [Nat.mul_mul_mul_comm, hcross, Nat.mul_mul_mul_comm]
    rw [hunits]

/-- The number of rounding units in a quotient, before it is rounded. -/
theorem units_le_iff (hd : den ≠ 0) (k : Nat) (unit : Int) :
    (k * 2 ^ unit : ℚ) ≤ num / den ↔
      k * (den * 2 ^ unit.toNat) ≤ num * 2 ^ (-unit).toNat := by
  have hden : (0 : ℚ) < den := by
    have := Nat.pos_of_ne_zero hd
    exact_mod_cast this
  have hpow : (0 : ℚ) < 2 ^ (-unit).toNat := by positivity
  rw [two_zpow_eq, ← mul_div_assoc, div_le_div_iff₀ hpow hden, mul_assoc,
    mul_comm (_ ^ _) (den : ℚ)]
  exact_mod_cast Iff.rfl

/-- A number beyond the top of the scale is rounded to infinity. -/
theorem nearest_of_top_le (hn : num ≠ 0) (hd : den ≠ 0) (h : (2 : ℚ) ^ f.top ≤ num / den) :
    f.nearest num den = f.infinity := by
  obtain ⟨hlow, hhigh⟩ := floorLog2_spec hn hd
  have htop : f.top < floorLog2 num den + 1 := two_zpow_lt_iff.1 (h.trans_lt hhigh)
  simp only [nearest, if_neg hn, Nat.shiftLeft_eq]
  apply Nat.min_eq_left
  rw [infinity_eq]
  by_cases hranges : f.ranges = 0
  · rw [hranges, Nat.zero_mul]
    exact Nat.zero_le _
  · have hunit : max f.lowest (floorLog2 num den - f.fractionBits) =
        floorLog2 num den - f.fractionBits := by
      unfold top at htop
      omega
    rw [hunit]
    have hunits : 2 ^ f.fractionBits ≤ roundHalfEven
        (num * 2 ^ (-(floorLog2 num den - f.fractionBits)).toNat)
        (den * 2 ^ (floorLog2 num den - f.fractionBits).toNat) := by
      refine le_trans ?_ (div_le_roundHalfEven _ _)
      rw [Nat.le_div_iff_mul_le (Nat.mul_pos (Nat.pos_of_ne_zero hd) (Nat.two_pow_pos _)),
        ← units_le_iff hd]
      push_cast
      rw [← zpow_natCast, ← two_zpow_add]
      convert hlow using 2
      omega
    have hrange : f.ranges ≤ (floorLog2 num den - f.fractionBits - f.lowest).toNat + 1 := by
      unfold top at htop
      omega
    calc f.ranges * 2 ^ f.fractionBits
        ≤ ((floorLog2 num den - f.fractionBits - f.lowest).toNat + 1) * 2 ^ f.fractionBits :=
          Nat.mul_le_mul_right _ hrange
      _ = (floorLog2 num den - f.fractionBits - f.lowest).toNat * 2 ^ f.fractionBits +
            2 ^ f.fractionBits := by rw [Nat.add_mul, Nat.one_mul]
      _ ≤ _ := Nat.add_le_add_left hunits _

/-- A number less than half the smallest step is rounded to zero. -/
theorem nearest_of_lt_lowest (hn : num ≠ 0) (hd : den ≠ 0)
    (h : (num / den : ℚ) < 2 ^ (f.lowest - 1)) : f.nearest num den = 0 := by
  obtain ⟨hlow, -⟩ := floorLog2_spec hn hd
  have hfloor : floorLog2 num den < f.lowest - 1 := two_zpow_lt_iff.1 (hlow.trans_lt h)
  have hunit : max f.lowest (floorLog2 num den - f.fractionBits) = f.lowest := by omega
  have hunits : roundHalfEven (num * 2 ^ (-f.lowest).toNat) (den * 2 ^ f.lowest.toNat) = 0 := by
    apply roundHalfEven_of_lt
    have hhalf : ¬ (((1 : Nat) : ℚ) * 2 ^ f.lowest ≤ (2 * num : Nat) / den) := by
      rw [not_le]
      have hstep : (2 : ℚ) ^ f.lowest = 2 * 2 ^ (f.lowest - 1) := by
        rw [show f.lowest = 1 + (f.lowest - 1) by omega, two_zpow_add, zpow_one]
        congr 2
        omega
      rw [hstep]
      push_cast
      rw [one_mul, mul_div_assoc]
      exact mul_lt_mul_of_pos_left h (by norm_num)
    rw [units_le_iff hd] at hhalf
    rw [Nat.one_mul, not_le] at hhalf
    rwa [Nat.mul_assoc] at hhalf
  simp only [nearest, if_neg hn, Nat.shiftLeft_eq, hunit, hunits, Int.sub_self]
  simp

/-! ## Decimals -/

/-- Ten is more than the cube of two. -/
theorem two_zpow_le_ten_zpow {e : Int} (h : 0 ≤ e) : (2 : ℚ) ^ (3 * e) ≤ 10 ^ e := by
  rw [zpow_mul]
  exact zpow_le_zpow_left₀ h (by norm_num) (by norm_num)

theorem ten_zpow_le_two_zpow {e : Int} (h : e ≤ 0) : (10 : ℚ) ^ e ≤ 2 ^ (3 * e) := by
  have hneg : (2 : ℚ) ^ (3 * -e) ≤ 10 ^ (-e) := two_zpow_le_ten_zpow (by omega)
  rw [mul_neg, zpow_neg, zpow_neg] at hneg
  exact (inv_le_inv₀ (two_zpow_pos _) (zpow_pos (by norm_num) e)).1 hneg

/-- The bounds on the size of a decimal say nothing else than the rounding. -/
theorem nearestDecimal_eq (f : Format) (d : Decimal) :
    f.nearestDecimal d =
      f.nearest (d.coefficient * 10 ^ d.exponent.toNat) (10 ^ (-d.exponent).toNat) := by
  have hden : 10 ^ (-d.exponent).toNat ≠ 0 := (Nat.pow_pos (by norm_num)).ne'
  unfold nearestDecimal
  split
  · next hzero => rw [hzero, Nat.zero_mul, nearest, if_pos rfl]
  · next hc =>
      have hnum : d.coefficient * 10 ^ d.exponent.toNat ≠ 0 :=
        Nat.mul_ne_zero hc (Nat.pow_pos (by norm_num)).ne'
      obtain ⟨hlow, hhigh⟩ := log2_bounds hc
      split
      · next hlarge =>
          obtain ⟨he, htop⟩ := hlarge
          refine (nearest_of_top_le hnum hden ?_).symm
          rw [← Decimal.value_eq, Decimal.value]
          calc (2 : ℚ) ^ f.top ≤ 2 ^ ((d.coefficient.log2 : Int) + 3 * d.exponent) :=
                zpow_le_zpow_right₀ (by norm_num) htop
            _ = 2 ^ (d.coefficient.log2 : Int) * 2 ^ (3 * d.exponent) := two_zpow_add _ _
            _ ≤ d.coefficient * 10 ^ d.exponent :=
                mul_le_mul hlow (two_zpow_le_ten_zpow he) (two_zpow_pos _).le (Nat.cast_nonneg _)
      · split
        · next hsmall =>
            obtain ⟨he, hlowest⟩ := hsmall
            refine (nearest_of_lt_lowest hnum hden ?_).symm
            rw [← Decimal.value_eq, Decimal.value]
            calc (d.coefficient * 10 ^ d.exponent : ℚ)
                < 2 ^ ((d.coefficient.log2 : Int) + 1) * 2 ^ (3 * d.exponent) :=
                  mul_lt_mul hhigh (ten_zpow_le_two_zpow he.le) (zpow_pos (by norm_num) _)
                    (two_zpow_pos _).le
              _ = 2 ^ ((d.coefficient.log2 : Int) + 1 + 3 * d.exponent) :=
                  (two_zpow_add _ _).symm
              _ ≤ 2 ^ (f.lowest - 1) := zpow_le_zpow_right₀ (by norm_num) (by omega)
        · rfl

theorem nearestDecimal_congr {d d' : Decimal} (h : d.value = d'.value) :
    f.nearestDecimal d = f.nearestDecimal d' := by
  rw [nearestDecimal_eq, nearestDecimal_eq]
  refine nearest_congr (Nat.pow_pos (by norm_num)).ne' (Nat.pow_pos (by norm_num)).ne' ?_
  rw [← Decimal.value_eq, ← Decimal.value_eq, h]

/-- A decimal that is a magnitude of the format is rounded to its place. -/
theorem nearestDecimal_of_eq_value {d : Decimal} {place : Nat} (hp : place ≤ f.infinity)
    (h : d.value = f.value place) : f.nearestDecimal d = place := by
  rw [nearestDecimal_eq]
  refine nearest_of_eq_value (Nat.pow_pos (by norm_num)).ne' hp ?_
  rw [← Decimal.value_eq, h]

end Format

end SharedState
