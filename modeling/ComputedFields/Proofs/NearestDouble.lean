import ComputedFields.Proofs.FiniteDouble
import Mathlib.Data.Nat.Dist

namespace ComputedFields.Binary64

/-- Of all whole multiples of the divisor, the rounded one is nearest. Another one is as near only at a tie, which goes
to the even side. -/
theorem roundHalfEven_closest {den : Nat} (positive : 0 < den) (num k : Nat) :
    (roundHalfEven num den * den).dist num ≤ (k * den).dist num ∧
      ((k * den).dist num = (roundHalfEven num den * den).dist num →
        k = roundHalfEven num den ∨ roundHalfEven num den % 2 = 0) := by
  have whole := Nat.div_add_mod' num den
  have below := Nat.mod_lt num positive
  have next : (num / den + 1) * den = num / den * den + den := Nat.succ_mul ..
  by_cases same : k = roundHalfEven num den
  · rw [same]
    exact ⟨le_rfl, fun _ => Or.inl rfl⟩
  · have apart : k * den + den ≤ roundHalfEven num den * den ∨ roundHalfEven num den * den + den ≤ k * den := by
      rw [← Nat.succ_mul, ← Nat.succ_mul]
      exact (Nat.lt_or_gt_of_ne same).imp (Nat.mul_le_mul_right den) (Nat.mul_le_mul_right den)
    rcases roundHalfEven_cases num den with ⟨less, rounded⟩ | ⟨more, rounded⟩ | ⟨tie, rounded⟩
    · rw [rounded] at apart ⊢
      simp only [Nat.dist]
      exact ⟨by omega, by omega⟩
    · rw [rounded, next] at apart ⊢
      simp only [Nat.dist]
      exact ⟨by omega, by omega⟩
    · have even : roundHalfEven num den % 2 = 0 := by omega
      refine ⟨?_, fun _ => Or.inr even⟩
      rcases Nat.mod_two_eq_zero_or_one (num / den) with zero | one
      · rw [rounded, zero, Nat.add_zero] at apart ⊢
        simp only [Nat.dist]
        omega
      · rw [rounded, one, next] at apart ⊢
        simp only [Nat.dist]
        omega

/-- What the bits of a significand and of its shift stand for. A significand that has been rounded up to `2 ^ 53` is the
next power of two, with an empty fraction. -/
theorem unitsOf_significand {shift significand : Nat} (upper : significand ≤ 2 ^ 53)
    (lower : 0 < shift → 2 ^ 52 ≤ significand) :
    unitsOf (shift * 0x10000000000000 + significand) = significand * 2 ^ shift := by
  have parts : significand < 2 ^ 52 ∨ (2 ^ 52 ≤ significand ∧ significand < 2 ^ 53) ∨ significand = 2 ^ 53 := by
    omega
  rcases parts with small | ⟨enough, less⟩ | top
  · have none : shift = 0 := by omega
    subst none
    have field : (0 * 0x10000000000000 + significand) / 0x10000000000000 = 0 := by omega
    have fraction : (0 * 0x10000000000000 + significand) % 0x10000000000000 = significand := by omega
    simp only [unitsOf, field, fraction, if_true, Nat.pow_zero, Nat.mul_one]
  · have field : (shift * 0x10000000000000 + significand) / 0x10000000000000 = shift + 1 := by omega
    have fraction : (shift * 0x10000000000000 + significand) % 0x10000000000000 = significand - 2 ^ 52 := by omega
    have whole : 0x10000000000000 + (significand - 2 ^ 52) = significand := by omega
    simp only [unitsOf, field, fraction, Nat.succ_ne_zero, if_false, whole, Nat.add_sub_cancel, Nat.pow_eq]
  · have field : (shift * 0x10000000000000 + significand) / 0x10000000000000 = shift + 2 := by omega
    have fraction : (shift * 0x10000000000000 + significand) % 0x10000000000000 = 0 := by omega
    have shifted : shift + 2 - 1 = shift + 1 := rfl
    have doubled : 0x10000000000000 * 2 ^ (shift + 1) = significand * 2 ^ shift := by
      rw [top, Nat.pow_succ]
      ring
    simp only [unitsOf, field, fraction, Nat.succ_ne_zero, if_false, Nat.add_zero, shifted, Nat.pow_eq, doubled]

/-- The doubles from `2 ^ (52 + shift)` units on count by `2 ^ shift` at least. -/
theorem unitsOf_cases (magnitude shift : Nat) :
    2 ^ shift ∣ unitsOf magnitude ∨ 0 < shift ∧ unitsOf magnitude < 2 ^ 52 * 2 ^ shift := by
  have fraction := Nat.mod_lt magnitude (by decide : 0 < 0x10000000000000)
  by_cases unshifted : shift = 0
  · subst unshifted
    exact Or.inl (one_dvd _)
  · have positive : 0 < shift := by omega
    simp only [unitsOf, Nat.pow_eq]
    split
    · have one : 1 ≤ 2 ^ shift := Nat.two_pow_pos shift
      exact Or.inr ⟨positive, lt_of_lt_of_le fraction (Nat.le_mul_of_pos_right _ one)⟩
    · rename_i normal
      by_cases far : shift ≤ magnitude / 0x10000000000000 - 1
      · exact Or.inl (dvd_mul_of_dvd_right (pow_dvd_pow 2 far) _)
      · refine Or.inr ⟨positive, ?_⟩
        have exponent : magnitude / 0x10000000000000 - 1 + 1 ≤ shift := by omega
        calc (0x10000000000000 + magnitude % 0x10000000000000) * 2 ^ (magnitude / 0x10000000000000 - 1)
            < 2 ^ 53 * 2 ^ (magnitude / 0x10000000000000 - 1) :=
              Nat.mul_lt_mul_of_pos_right (by omega) (Nat.two_pow_pos _)
          _ = 2 ^ 52 * 2 ^ (magnitude / 0x10000000000000 - 1 + 1) := by
              rw [Nat.pow_succ]
              ring
          _ ≤ 2 ^ 52 * 2 ^ shift := Nat.mul_le_mul_left _ (Nat.pow_le_pow_right (by decide) exponent)

/-- The significand of the nearest double and how far it is shifted. Where it is shifted at all, it has all of its
bits. -/
theorem nearest_parts {den : Nat} (positive : 0 < den) (num : Nat) {shift significand : Nat}
    (shifted : shift = Nat.log2 (num * unity / den) - 52)
    (rounded : significand = roundHalfEven (num * unity) (den * 2 ^ shift)) :
    nearest num den = shift * 0x10000000000000 + significand ∧ significand ≤ 2 ^ 53 ∧
      (0 < shift → 2 ^ 52 ≤ significand ∧ 2 ^ 52 * (den * 2 ^ shift) ≤ num * unity) := by
  have floor : num * unity / (den * 2 ^ shift) = num * unity / den / 2 ^ shift := by
    rw [Nat.div_div_eq_div_mul]
  obtain ⟨less, enough⟩ := significand_bounds shifted
  rw [← floor] at less enough
  have cases := roundHalfEven_cases (num * unity) (den * 2 ^ shift)
  rw [← rounded] at cases
  have split : nearest num den = shift * 0x10000000000000 + significand := by
    rw [rounded, shifted]
    rfl
  refine ⟨split, by omega, fun some => ?_⟩
  have filled := enough (by omega)
  refine ⟨by omega, ?_⟩
  rwa [Nat.le_div_iff_mul_le (Nat.mul_pos positive (Nat.two_pow_pos shift))] at filled

/-- In units of the least double, the nearest double is the quotient rounded at the place where its 53 bits end. -/
theorem unitsOf_nearest {den : Nat} (positive : 0 < den) (num : Nat) {shift : Nat}
    (shifted : shift = Nat.log2 (num * unity / den) - 52) :
    unitsOf (nearest num den) = roundHalfEven (num * unity) (den * 2 ^ shift) * 2 ^ shift := by
  obtain ⟨split, upper, lower⟩ := nearest_parts positive num shifted rfl
  rw [split]
  exact unitsOf_significand upper fun some => (lower some).1

/-- No magnitude is nearer to a quotient than the one it is rounded to, and one that is as near leaves it the even
bits. -/
theorem nearest_closest {den : Nat} (positive : 0 < den) (num magnitude : Nat) :
    (unitsOf (nearest num den) * den).dist (num * unity) ≤ (unitsOf magnitude * den).dist (num * unity) ∧
      ((unitsOf magnitude * den).dist (num * unity) = (unitsOf (nearest num den) * den).dist (num * unity) →
        unitsOf magnitude = unitsOf (nearest num den) ∨ nearest num den % 2 = 0) := by
  obtain ⟨shift, shifted⟩ : ∃ shift, shift = Nat.log2 (num * unity / den) - 52 := ⟨_, rfl⟩
  obtain ⟨significand, rounded⟩ : ∃ s, s = roundHalfEven (num * unity) (den * 2 ^ shift) := ⟨_, rfl⟩
  obtain ⟨split, _, lower⟩ := nearest_parts positive num shifted rounded
  have parity : nearest num den % 2 = significand % 2 := by omega
  have step : 0 < den * 2 ^ shift := Nat.mul_pos positive (Nat.two_pow_pos shift)
  have scaled (k : Nat) : k * 2 ^ shift * den = k * (den * 2 ^ shift) := by ring
  rw [unitsOf_nearest positive num shifted, ← rounded, parity, scaled, rounded]
  rcases unitsOf_cases magnitude shift with ⟨k, multiple⟩ | ⟨some, small⟩
  · obtain ⟨closest, even⟩ := roundHalfEven_closest step (num * unity) k
    rw [multiple, Nat.mul_comm (2 ^ shift) k, scaled]
    refine ⟨closest, fun same => (even same).imp_left fun equal => ?_⟩
    rw [equal]
  · -- The least double of this exponent lies between the quotient and every double that is not a multiple.
    obtain ⟨_, enough⟩ := lower some
    obtain ⟨closest, _⟩ := roundHalfEven_closest step (num * unity) (2 ^ 52)
    have under : unitsOf magnitude * den < 2 ^ 52 * (den * 2 ^ shift) := by
      rw [← scaled]
      exact Nat.mul_lt_mul_of_pos_right small positive
    generalize unitsOf magnitude * den = units at under ⊢
    generalize 2 ^ 52 * (den * 2 ^ shift) = least at enough closest under
    simp only [Nat.dist] at closest ⊢
    omega

def signed (negative : Bool) (units : Nat) : Int := if negative then -(units : Int) else units

/-- The value of a finite double, counted in least positive doubles. -/
def signedUnits (x : Binary64) : Int := signed x.negative x.units

/-- The double that a whole number is rounded to: no finite double is nearer, and one of another value is as near only
if the bits are even. -/
structure Rounds (x : Binary64) (n : Int) : Prop where
  finite : x.isFinite = true
  closest : ∀ y : Binary64, y.isFinite = true →
    (x.signedUnits - n * unity).natAbs ≤ (y.signedUnits - n * unity).natAbs
  even : ∀ y : Binary64, y.isFinite = true →
    (y.signedUnits - n * unity).natAbs = (x.signedUnits - n * unity).natAbs →
      y.signedUnits = x.signedUnits ∨ x.magnitude.val % 2 = 0

theorem mul_unity (n : Int) : n * (unity : Int) = signed (n < 0) (n.natAbs * unity) := by
  simp only [signed, decide_eq_true_eq, Nat.cast_mul]
  split
  · have negated : (n.natAbs : Int) = -n := by omega
    rw [negated, Int.neg_mul, Int.neg_neg]
  · have same : (n.natAbs : Int) = n := by omega
    rw [same]

theorem natAbs_signed_sub (negative : Bool) (units other : Nat) :
    (signed negative units - signed negative other).natAbs = units.dist other := by
  simp only [signed, Nat.dist]
  split <;> omega

/-- A difference in sign takes two values farther apart, unless one of them is zero. -/
theorem natAbs_opposite_sub {negative opposite : Bool} (differ : negative ≠ opposite) (units other : Nat) :
    (signed opposite units - signed negative other).natAbs = units + other := by
  obtain rfl : opposite = !negative := Bool.eq_not.mpr differ.symm
  cases negative with
  | false =>
    simp only [signed, Bool.not_false, if_true, Bool.false_eq_true, if_false]
    omega
  | true =>
    simp only [signed, Bool.not_true, if_true, Bool.false_eq_true, if_false]
    omega

theorem unity_eq_two_pow : unity = 2 ^ 1074 := by
  unfold unity
  generalize 1074 = n
  rfl

theorem roundHalfEven_of_dvd {num den : Nat} (positive : 0 < den) (divides : den ∣ num) :
    roundHalfEven num den * den = num := by
  have none : num % den = 0 := Nat.mod_eq_zero_of_dvd divides
  rcases roundHalfEven_cases num den with ⟨_, rounded⟩ | ⟨more, _⟩ | ⟨tie, _⟩
  · rw [rounded, Nat.div_mul_cancel divides]
  · omega
  · omega

section

/- As the exponent of the unit is too great to be computed with, it is `bits` here. -/
variable {n bits shift : Nat}

/-- An integer of at most 53 bits ends in front of that place, so nothing of it is rounded off. -/
theorem dvd_of_small (small : n < 2 ^ 53) (shifted : shift = Nat.log2 (n * 2 ^ bits) - 52) :
    2 ^ shift ∣ n * 2 ^ bits := by
  by_cases zero : n * 2 ^ bits = 0
  · rw [zero]
    exact dvd_zero _
  · have bound : n * 2 ^ bits < 2 ^ (53 + bits) := by
      rw [Nat.pow_add]
      exact Nat.mul_lt_mul_of_pos_right small (Nat.two_pow_pos bits)
    have log := (Nat.log2_lt zero).mpr bound
    have within : shift ≤ bits := by omega
    exact dvd_mul_of_dvd_right (pow_dvd_pow 2 within) n

theorem shift_of_great (great : 2 ^ 53 ≤ n) (shifted : shift = Nat.log2 (n * 2 ^ bits) - 52) : bits + 1 ≤ shift := by
  have bound : 2 ^ (53 + bits) ≤ n * 2 ^ bits := by
    rw [Nat.pow_add]
    exact Nat.mul_le_mul_right _ great
  have nonzero : n * 2 ^ bits ≠ 0 := by
    have positive := Nat.two_pow_pos (53 + bits)
    omega
  have log := (Nat.le_log2 nonzero).mpr bound
  omega

end

section

variable {n : Int} (fits : -0x8000000000000000 ≤ n ∧ n < 0x10000000000000000)

include fits

theorem magnitude_ofInt : (ofInt n).magnitude.val = nearest n.natAbs 1 := by
  have finite : (ofInt n).isFinite = true := Number.isFinite_toDouble (.int n fits)
  have below := (isFinite_ofQuotient _ _ _).mp finite
  exact Nat.min_eq_left (Nat.le_of_lt below)

theorem units_ofInt {shift : Nat} (shifted : shift = Nat.log2 (n.natAbs * unity) - 52) :
    (ofInt n).units = roundHalfEven (n.natAbs * unity) (2 ^ shift) * 2 ^ shift := by
  rw [units, magnitude_ofInt fits, unitsOf_nearest Nat.one_pos, Nat.one_mul]
  rw [Nat.div_one, shifted]

/-- Below `2 ^ 53` no bit of an integer is lost. -/
theorem units_ofInt_of_small (small : n.natAbs < 2 ^ 53) : (ofInt n).units = n.natAbs * unity := by
  obtain ⟨shift, shifted⟩ : ∃ shift, shift = Nat.log2 (n.natAbs * unity) - 52 := ⟨_, rfl⟩
  rw [units_ofInt fits shifted]
  refine roundHalfEven_of_dvd (Nat.two_pow_pos shift) ?_
  rw [unity_eq_two_pow] at shifted ⊢
  exact dvd_of_small small shifted

/-- Rounding never leads back below `2 ^ 53`. -/
theorem le_units_ofInt_of_great (great : 2 ^ 53 ≤ n.natAbs) : 2 ^ 53 * unity ≤ (ofInt n).units := by
  obtain ⟨shift, shifted⟩ : ∃ shift, shift = Nat.log2 (n.natAbs * unity / 1) - 52 := ⟨_, rfl⟩
  obtain ⟨_, _, lower⟩ := nearest_parts Nat.one_pos n.natAbs shifted rfl
  rw [Nat.div_one] at shifted
  rw [units_ofInt fits shifted]
  rw [unity_eq_two_pow] at shifted
  have far := shift_of_great great shifted
  obtain ⟨enough, _⟩ := lower (by omega)
  rw [Nat.one_mul] at enough
  have doubled (bits : Nat) : 2 ^ 53 * 2 ^ bits = 2 ^ 52 * 2 ^ (bits + 1) := by
    rw [Nat.pow_succ]
    ring
  calc 2 ^ 53 * unity = 2 ^ 52 * 2 ^ (1074 + 1) := by rw [unity_eq_two_pow, doubled]
    _ ≤ 2 ^ 52 * 2 ^ shift := Nat.mul_le_mul_left _ (Nat.pow_le_pow_right (by decide) far)
    _ ≤ _ := Nat.mul_le_mul_right _ enough

/-- An integer is rounded to the nearest double, a tie to the even one. -/
theorem rounds_ofInt : (ofInt n).Rounds n := by
  have sign : (ofInt n).signedUnits = signed (n < 0) (ofInt n).units := rfl
  have nearest (y : Binary64) :
      (ofInt n).units.dist (n.natAbs * unity) ≤ y.units.dist (n.natAbs * unity) ∧
        (y.units.dist (n.natAbs * unity) = (ofInt n).units.dist (n.natAbs * unity) →
          y.units = (ofInt n).units ∨ (ofInt n).magnitude.val % 2 = 0) := by
    have closest := nearest_closest Nat.one_pos n.natAbs y.magnitude.val
    rw [← magnitude_ofInt fits, Nat.mul_one, Nat.mul_one] at closest
    exact closest
  obtain ⟨zero, _⟩ := nearest ⟨false, 0⟩
  have none : (⟨false, 0⟩ : Binary64).units = 0 := rfl
  rw [none] at zero
  refine ⟨Number.isFinite_toDouble (.int n fits), fun y _ => ?_, fun y _ same => ?_⟩
  · obtain ⟨closest, _⟩ := nearest y
    rw [sign, mul_unity, natAbs_signed_sub, signedUnits]
    by_cases alike : decide (n < 0) = y.negative
    · rw [← alike, natAbs_signed_sub]
      exact closest
    · rw [natAbs_opposite_sub alike]
      simp only [Nat.dist] at closest ⊢
      omega
  · obtain ⟨_, even⟩ := nearest y
    rw [sign, mul_unity, natAbs_signed_sub, signedUnits] at same
    rw [sign, signedUnits]
    by_cases alike : decide (n < 0) = y.negative
    · rw [← alike, natAbs_signed_sub] at same
      rw [← alike]
      exact (even same).imp_left (congrArg _)
    · -- Across zero only zero itself can be as near.
      rw [natAbs_opposite_sub alike] at same
      have atZero : y.units = 0 := by
        simp only [Nat.dist] at same zero
        omega
      have tie : y.units.dist (n.natAbs * unity) = (ofInt n).units.dist (n.natAbs * unity) := by
        simp only [Nat.dist] at same zero ⊢
        omega
      refine (even tie).imp_left fun equal => ?_
      rw [← equal, atZero]
      simp only [signed, Nat.cast_zero, Int.neg_zero, ite_self]

end

end ComputedFields.Binary64
