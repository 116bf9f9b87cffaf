import ComputedFields.Number.Basic
import Mathlib.Algebra.Order.Ring.Nat
import Mathlib.Tactic.Ring

namespace ComputedFields

namespace Binary64

/-- Halfway between the greatest finite double and `2 ^ 1024`: from here on, numbers round to infinity. -/
def overflow : Nat := (2 ^ 54 - 1) * 2 ^ 970

/-- Rounding goes down below the half, up above it, and to the even side where there is a tie. -/
theorem roundHalfEven_cases (num den : Nat) :
    (2 * (num % den) < den ∧ roundHalfEven num den = num / den) ∨
      (den < 2 * (num % den) ∧ roundHalfEven num den = num / den + 1) ∨
      (2 * (num % den) = den ∧ roundHalfEven num den = num / den + num / den % 2) := by
  simp only [roundHalfEven]
  split
  · exact Or.inl ⟨by assumption, rfl⟩
  · split
    · exact Or.inr (Or.inl ⟨by assumption, rfl⟩)
    · exact Or.inr (Or.inr ⟨by omega, rfl⟩)

/-- A quotient stays below an even bound after rounding exactly if it is more than a half below it. A tie just under
the bound goes up, to the even side. -/
theorem roundHalfEven_lt_iff {num den half : Nat} (positive : 0 < den) :
    roundHalfEven num den < 2 * half ↔ 2 * num < (4 * half - 1) * den := by
  have doubled : 2 * num / den = 2 * (num / den) + 2 * (num % den) / den := by
    have split : 2 * num = den * (2 * (num / den)) + 2 * (num % den) := by
      have whole := Nat.div_add_mod num den
      rw [Nat.mul_left_comm]
      omega
    rw [split, Nat.mul_add_div positive]
  have below := Nat.mod_lt num positive
  rw [← Nat.div_lt_iff_lt_mul positive, doubled]
  rcases roundHalfEven_cases num den with ⟨less, rounded⟩ | ⟨more, rounded⟩ | ⟨tie, rounded⟩
  · rw [rounded, Nat.div_eq_of_lt less]
    omega
  · have one : 2 * (num % den) / den = 1 := Nat.div_eq_of_lt_le (by omega) (by omega)
    rw [rounded, one]
    omega
  · rw [rounded, tie, Nat.div_self positive]
    omega

/-- The significand that `nearest` rounds to has 53 bits, unless it is rounded up to `2 ^ 53`. -/
theorem significand_bounds {q shift : Nat} (shifted : shift = Nat.log2 q - 52) :
    q / 2 ^ shift < 2 ^ 53 ∧ (52 ≤ Nat.log2 q → 2 ^ 52 ≤ q / 2 ^ shift) := by
  constructor
  · rw [Nat.div_lt_iff_lt_mul (Nat.two_pow_pos shift), ← Nat.pow_add]
    exact lt_of_lt_of_le Nat.lt_log2_self (Nat.pow_le_pow_right (by decide) (by omega))
  · intro large
    have nonzero : q ≠ 0 := by
      rintro rfl
      exact absurd large (by decide)
    rw [Nat.le_div_iff_mul_le (Nat.two_pow_pos shift), ← Nat.pow_add]
    exact le_trans (Nat.pow_le_pow_right (by decide) (by omega)) (Nat.log2_self_le nonzero)

theorem isFinite_ofQuotient (negative : Bool) (num den : Nat) :
    (ofQuotient negative num den).isFinite = true ↔ nearest num den < infinityBits := by
  have field : (ofQuotient negative num den).isFinite = true ↔
      min (nearest num den) infinityBits / 0x10000000000000 < 0x7FF := decide_eq_true_iff
  rw [field, Nat.div_lt_iff_lt_mul (by decide)]
  simp only [infinityBits]
  omega

section

/- The exponents of doubles are too great to be computed with, so here `unit` stands for the least positive double's
share of one and `top` for the greatest shift. -/
variable {num den unit last top : Nat}

/-- At the greatest exponent a number stays finite as long as it does not round up to the next power of two. The half
there goes up, since the number below it is odd. -/
theorem rounded_lt_iff_at_top (positive : 0 < den) (unitPos : 0 < unit) (power : 2 ^ top = 2 * (unit * last)) :
    roundHalfEven (num * unit) (den * 2 ^ top) < 2 * 2 ^ 52 ↔ num < (2 ^ 54 - 1) * last * den := by
  have factor : 4 * 2 ^ 52 - 1 = 2 ^ 54 - 1 := rfl
  have bound : (4 * 2 ^ 52 - 1) * (den * 2 ^ top) = 2 * (unit * ((2 ^ 54 - 1) * last * den)) := by
    rw [power, factor]
    ring
  rw [roundHalfEven_lt_iff (Nat.mul_pos positive (Nat.two_pow_pos top)), bound, Nat.mul_lt_mul_left (by decide),
    Nat.mul_comm num, Nat.mul_lt_mul_left unitPos]

theorem quotient_lt_iff (positive : 0 < den) (unitPos : 0 < unit) (k : Nat) :
    num * unit / den < unit * k ↔ num < k * den := by
  rw [Nat.div_lt_iff_lt_mul positive, Nat.mul_assoc, Nat.mul_comm num, Nat.mul_lt_mul_left unitPos]

/-- Rounding decides about infinity only at the greatest exponent. Below it every number is finite, above it none. -/
theorem significand_lt_iff (positive : 0 < den) (unitPos : 0 < unit) (power : 2 ^ top = 2 * (unit * last))
    {q shift : Nat} (quotient : q = num * unit / den) (shifted : shift = Nat.log2 q - 52) :
    shift * 2 ^ 52 + roundHalfEven (num * unit) (den * 2 ^ shift) < (top + 2) * 2 ^ 52 ↔
      num < (2 ^ 54 - 1) * last * den := by
  have floor : num * unit / (den * 2 ^ shift) = q / 2 ^ shift := by
    rw [← Nat.div_div_eq_div_mul, quotient]
  have significand := significand_bounds shifted
  rw [← floor] at significand
  have rounding := roundHalfEven_cases (num * unit) (den * 2 ^ shift)
  rcases lt_trichotomy shift top with below | same | above
  · have small : q < unit * (2 ^ 53 * last) := by
      have bits : q < 2 ^ (52 + top) :=
        lt_of_lt_of_le Nat.lt_log2_self (Nat.pow_le_pow_right (by decide) (by omega))
      have split : 2 ^ (52 + top) = unit * (2 ^ 53 * last) := by
        rw [Nat.pow_add, power]
        ring
      rwa [split] at bits
    rw [quotient, quotient_lt_iff positive unitPos] at small
    refine iff_of_true (by omega) (lt_of_lt_of_le small ?_)
    exact Nat.mul_le_mul_right _ (Nat.mul_le_mul_right _ (by decide))
  · subst same
    rw [← rounded_lt_iff_at_top positive unitPos power]
    omega
  · have great : ¬ q < unit * (2 ^ 54 * last) := by
      have nonzero : q ≠ 0 := by
        rintro rfl
        exact absurd shifted (by simp only [Nat.log2_zero]; omega)
      have bits : 2 ^ (53 + top) ≤ q :=
        le_trans (Nat.pow_le_pow_right (by decide) (by omega)) (Nat.log2_self_le nonzero)
      have split : 2 ^ (53 + top) = unit * (2 ^ 54 * last) := by
        rw [Nat.pow_add, power]
        ring
      rw [split] at bits
      exact Nat.not_lt.mpr bits
    rw [quotient, quotient_lt_iff positive unitPos] at great
    have significant := significand.2 (by omega)
    refine iff_of_false (by omega) fun small => great (lt_of_lt_of_le small ?_)
    exact Nat.mul_le_mul_right _ (Nat.mul_le_mul_right _ (by decide))

end

theorem unity_pos : 0 < unity := by
  unfold unity
  generalize 1074 = n
  exact Nat.two_pow_pos n

theorem two_pow_top : 2 ^ (1 + (1074 + 970)) = 2 * (unity * 2 ^ 970) := by
  have split (a b : Nat) : 2 ^ (1 + (a + b)) = 2 * (2 ^ a * 2 ^ b) := by
    rw [Nat.pow_add, Nat.pow_add, Nat.pow_one]
  have unity_eq : unity = 2 ^ 1074 := by
    unfold unity
    generalize 1074 = n
    rfl
  rw [unity_eq]
  exact split _ _

/-- A quotient is finite as a double exactly if it is less than `overflow`. -/
theorem isFinite_ofQuotient_iff {num den : Nat} (positive : 0 < den) (negative : Bool) :
    (ofQuotient negative num den).isFinite = true ↔ num < overflow * den := by
  rw [isFinite_ofQuotient, overflow, ← significand_lt_iff positive unity_pos two_pow_top rfl rfl]
  rfl

theorem isFinite_zero (negative : Bool) : (⟨negative, 0⟩ : Binary64).isFinite = true := by
  decide +revert

theorem not_isFinite_infinity (negative : Bool) :
    ¬ (⟨negative, Fin.ofNat _ infinityBits⟩ : Binary64).isFinite = true := by
  decide +revert

theorem two_pow_le_overflow {k : Nat} (small : k ≤ 970) : 2 ^ k ≤ overflow := by
  have bound (n : Nat) (less : k ≤ n) : 2 ^ k ≤ (2 ^ 54 - 1) * 2 ^ n :=
    le_trans (Nat.pow_le_pow_right (by decide) less) (Nat.le_mul_of_pos_left _ (by decide))
  exact bound 970 small

theorem overflow_le_two_pow {k : Nat} (great : 1024 ≤ k) : overflow ≤ 2 ^ k := by
  have bound (n : Nat) (more : 54 + n ≤ k) : (2 ^ 54 - 1) * 2 ^ n ≤ 2 ^ k :=
    calc (2 ^ 54 - 1) * 2 ^ n ≤ 2 ^ 54 * 2 ^ n := Nat.mul_le_mul_right _ (by decide)
      _ = 2 ^ (54 + n) := (Nat.pow_add ..).symm
      _ ≤ 2 ^ k := Nat.pow_le_pow_right (by decide) more
  exact bound 970 great

end Binary64

namespace Number

theorem isFinite_toDouble (n : Number) : n.toDouble.isFinite = true := by
  cases n with
  | float x finite => exact finite
  | int n fits =>
    have bits : n.natAbs < 2 ^ 65 := by omega
    have below := lt_of_lt_of_le bits (Binary64.two_pow_le_overflow (by decide))
    exact (Binary64.isFinite_ofQuotient_iff Nat.one_pos _).mpr (by rwa [Nat.mul_one])

/-- Every finite double is a number, and no other double is. -/
theorem canonical?_isSome_iff (x : Binary64) : (canonical? x).isSome = true ↔ x.isFinite = true := by
  unfold canonical?
  split
  · rename_i finite
    refine iff_of_true ?_ finite
    split
    · rename_i small
      simp only [Bool.and_eq_true, decide_eq_true_eq] at small
      have fits : -0x8000000000000000 ≤ x.truncate ∧ x.truncate < 0x10000000000000000 := by omega
      rw [ofInt?, dif_pos fits]
      rfl
    · rfl
  · rename_i infinite
    exact iff_of_false (by decide) infinite

end Number

namespace Decimal

/-- A decimal that is so small that the nearest double is finite. -/
def Finite (d : Decimal) : Prop :=
  d.digits * 10 ^ d.exponent.toNat < Binary64.overflow * 10 ^ (-d.exponent).toNat

/-- Where the conversion settles a small decimal without building a power, the decimal is finite indeed. -/
theorem finite_of_tiny {d : Decimal} (tiny : d.digits = 0 ∨ d.exponent + Nat.log2 d.digits < -400) : d.Finite := by
  have nonzero : 1 ≤ Binary64.overflow := Binary64.two_pow_le_overflow (Nat.zero_le 970)
  unfold Finite
  rcases tiny with zero | small
  · rw [zero, Nat.zero_mul]
    exact Nat.mul_pos nonzero (Nat.pow_pos (by decide))
  · have none : d.exponent.toNat = 0 := by omega
    rw [none, Nat.pow_zero, Nat.mul_one]
    calc d.digits < 2 ^ (Nat.log2 d.digits + 1) := Nat.lt_log2_self
      _ ≤ 10 ^ (Nat.log2 d.digits + 1) := Nat.pow_le_pow_left (by decide) _
      _ ≤ 10 ^ (-d.exponent).toNat := Nat.pow_le_pow_right (by decide) (by omega)
      _ ≤ Binary64.overflow * 10 ^ (-d.exponent).toNat := Nat.le_mul_of_pos_left _ nonzero

/-- Where it settles a great one in this way, the decimal is beyond all finite doubles. -/
theorem not_finite_of_huge {d : Decimal} (nonzero : d.digits ≠ 0) (huge : 400 < d.exponent) : ¬ d.Finite := by
  have none : (-d.exponent).toNat = 0 := by omega
  unfold Finite
  rw [none, Nat.pow_zero, Nat.mul_one, Nat.not_lt]
  calc Binary64.overflow ≤ 2 ^ (3 * d.exponent.toNat) := Binary64.overflow_le_two_pow (by omega)
    _ = (2 ^ 3) ^ d.exponent.toNat := Nat.pow_mul ..
    _ ≤ 10 ^ d.exponent.toNat := Nat.pow_le_pow_left (by decide) _
    _ ≤ d.digits * 10 ^ d.exponent.toNat := Nat.le_mul_of_pos_left _ (Nat.pos_of_ne_zero nonzero)

/-- The two exits for very small and very great exponents agree with the exact comparison. -/
theorem isFinite_toBinary64_iff (d : Decimal) : d.toBinary64.isFinite = true ↔ d.Finite := by
  unfold toBinary64
  split
  · rename_i tiny
    simp only [Bool.or_eq_true, decide_eq_true_eq] at tiny
    exact iff_of_true (Binary64.isFinite_zero _) (finite_of_tiny tiny)
  · rename_i notTiny
    simp only [Bool.or_eq_true, decide_eq_true_eq, not_or] at notTiny
    split
    · rename_i huge
      exact iff_of_false (Binary64.not_isFinite_infinity _) (not_finite_of_huge notTiny.1 huge)
    · split
      · rename_i whole
        have none : (-d.exponent).toNat = 0 := by omega
        rw [Binary64.isFinite_ofQuotient_iff Nat.one_pos, Finite, none, Nat.pow_zero, Nat.pow_eq]
      · rename_i fractional
        have none : d.exponent.toNat = 0 := by omega
        rw [Nat.pow_eq, Binary64.isFinite_ofQuotient_iff (Nat.pow_pos (by decide)), Finite, none, Nat.pow_zero,
          Nat.mul_one]

end Decimal

end ComputedFields
