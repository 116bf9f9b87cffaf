import ComputedFields.Proofs.NearestDouble
import ComputedFields.Proofs.UnsignedZero
import Mathlib.Algebra.Order.Field.Power
import Mathlib.Data.Rat.Cast.Order
import Mathlib.Tactic.FieldSimp

namespace ComputedFields

namespace Binary64

/-- The number with this sign, this exponent field and this fraction of 52 bits. An empty exponent field stands for the
same power of two as the next one, but without the leading bit. -/
def dyadic (negative : Bool) (exponent fraction : Nat) : ℚ :=
  (if negative then -1 else 1) *
    if exponent = 0 then (fraction : ℚ) * (2 : ℚ) ^ (-1074 : ℤ)
    else (2 ^ 52 + (fraction : ℚ)) * (2 : ℚ) ^ ((exponent : ℤ) - 1075)

/-- The exact value of a finite double. -/
def value (x : Binary64) : ℚ := dyadic x.negative x.exponentField x.fraction

/-- The exponent field in the 64 bits of a double, and the fraction below it. -/
def exponentOfBits (bits : UInt64) : Nat := bits.toNat / 2 ^ 52 % 2 ^ 11

def fractionOfBits (bits : UInt64) : Nat := bits.toNat % 2 ^ 52

def valueOfBits (bits : UInt64) : ℚ := dyadic (bits.toNat.testBit 63) (exponentOfBits bits) (fractionOfBits bits)

def IsNaN (bits : UInt64) : Prop := exponentOfBits bits = 2 ^ 11 - 1 ∧ fractionOfBits bits ≠ 0

def IsInfinite (bits : UInt64) : Prop := exponentOfBits bits = 2 ^ 11 - 1 ∧ fractionOfBits bits = 0

instance (bits : UInt64) : Decidable (IsNaN bits) := inferInstanceAs (Decidable (_ ∧ _))

instance (bits : UInt64) : Decidable (IsInfinite bits) := inferInstanceAs (Decidable (_ ∧ _))

theorem exponentField_ofBits (bits : UInt64) : (ofBits bits).exponentField = exponentOfBits bits := by
  simp only [ofBits, exponentField, exponentOfBits]
  omega

theorem fraction_ofBits (bits : UInt64) : (ofBits bits).fraction = fractionOfBits bits := by
  simp only [ofBits, fraction, fractionOfBits]
  omega

theorem negative_ofBits (bits : UInt64) : (ofBits bits).negative = bits.toNat.testBit 63 := by
  have bound := bits.toNat_lt
  rw [Nat.testBit_eq_decide_div_mod_eq, ofBits, decide_eq_decide]
  omega

theorem value_ofBits (bits : UInt64) : (ofBits bits).value = valueOfBits bits := by
  rw [value, exponentField_ofBits, fraction_ofBits, negative_ofBits, valueOfBits]

theorem isFinite_ofBits_iff (bits : UInt64) : (ofBits bits).isFinite = true ↔ ¬(IsNaN bits ∨ IsInfinite bits) := by
  have bound : exponentOfBits bits < 2 ^ 11 := Nat.mod_lt _ (by decide)
  rw [isFinite, exponentField_ofBits, decide_eq_true_eq, IsNaN, IsInfinite, ← and_or_left,
    and_iff_left (ne_or_eq _ _)]
  omega

/-- Greater magnitude bits are more units, also across the end of an exponent. -/
theorem unitsOf_strictMono : StrictMono unitsOf := by
  refine strictMono_nat_of_lt_succ fun magnitude => ?_
  have below := Nat.mod_lt magnitude (by decide : 0 < 0x10000000000000)
  simp only [unitsOf, Nat.pow_eq]
  generalize field : magnitude / 0x10000000000000 = f
  generalize atFraction : magnitude % 0x10000000000000 = r at below
  by_cases carry : r + 1 = 0x10000000000000
  · have nextField : (magnitude + 1) / 0x10000000000000 = f + 1 := by omega
    have nextFraction : (magnitude + 1) % 0x10000000000000 = 0 := by omega
    rw [nextField, nextFraction, if_neg (Nat.succ_ne_zero f), Nat.add_zero, Nat.add_sub_cancel]
    split
    · rename_i zero
      rw [zero, Nat.pow_zero]
      omega
    · rename_i normal
      obtain ⟨e, rfl⟩ := Nat.exists_eq_succ_of_ne_zero normal
      rw [Nat.succ_sub_one, Nat.pow_succ, Nat.mul_comm (2 ^ e), ← Nat.mul_assoc]
      exact Nat.mul_lt_mul_of_pos_right (by omega) (Nat.two_pow_pos e)
  · have sameField : (magnitude + 1) / 0x10000000000000 = f := by omega
    have nextFraction : (magnitude + 1) % 0x10000000000000 = r + 1 := by omega
    rw [sameField, nextFraction]
    split
    · omega
    · exact Nat.mul_lt_mul_of_pos_right (by omega) (Nat.two_pow_pos _)

theorem signed_inj_iff {negative negative' : Bool} {units units' : Nat} :
    signed negative units = signed negative' units' ↔ units = units' ∧ (negative = negative' ∨ units = 0) := by
  simp only [signed]
  cases negative <;> cases negative' <;> simp <;> omega

theorem units_eq_zero_iff {x : Binary64} : x.units = 0 ↔ x.isZero = true := by
  rw [isZero, beq_iff_eq]
  exact unitsOf_strictMono.injective.eq_iff (b := 0)

/-- The units of a double tell it from all others, except that the two zeros have none. -/
theorem signedUnits_eq_iff {x y : Binary64} : x.signedUnits = y.signedUnits ↔ x.unsigned = y.unsigned := by
  rw [signedUnits, signedUnits, signed_inj_iff, ← sameValue_iff, sameValue, Bool.or_eq_true, decide_eq_true_eq,
    Bool.and_eq_true, units_eq_zero_iff]
  constructor
  · rintro ⟨units, alike | none⟩
    · have magnitudes : x.magnitude = y.magnitude := Fin.ext (unitsOf_strictMono.injective units)
      cases x
      cases y
      exact Or.inl (congrArg₂ Binary64.mk alike magnitudes)
    · exact Or.inr ⟨none, units_eq_zero_iff.mp (units ▸ units_eq_zero_iff.mpr none)⟩
  · rintro (rfl | ⟨none, none'⟩)
    · exact ⟨rfl, Or.inl rfl⟩
    · exact ⟨(units_eq_zero_iff.mpr none).trans (units_eq_zero_iff.mpr none').symm, Or.inr none⟩

theorem zpow_sub_natCast (n bits : Nat) : (2 : ℚ) ^ ((n : ℤ) - (bits : ℤ)) = 2 ^ n / 2 ^ bits := by
  rw [zpow_sub₀ two_ne_zero, zpow_natCast, zpow_natCast]

/-- As the exponent of the unit is too great to be computed with, it is `bits` here. -/
theorem scaled_eq (bits exponent fraction : Nat) :
    (if exponent = 0 then (fraction : ℚ) * (2 : ℚ) ^ (-(bits : ℤ))
      else (2 ^ 52 + (fraction : ℚ)) * (2 : ℚ) ^ ((exponent : ℤ) - ((bits + 1 : ℕ) : ℤ))) =
      ((if exponent = 0 then fraction else (0x10000000000000 + fraction) * 2 ^ (exponent - 1) : ℕ) : ℚ) /
        ((2 ^ bits : ℕ) : ℚ) := by
  split
  · have least := zpow_sub_natCast 0 bits
    rw [Nat.cast_zero, zero_sub, pow_zero] at least
    rw [least, Nat.cast_pow, Nat.cast_ofNat, mul_one_div]
  · have shifted : (exponent : ℤ) - ((bits + 1 : ℕ) : ℤ) = ((exponent - 1 : ℕ) : ℤ) - bits := by omega
    rw [shifted, zpow_sub_natCast]
    push_cast
    ring

/-- The value of a double is its count of units, each of which is the least positive double. -/
theorem value_eq (x : Binary64) : x.value = x.signedUnits / unity := by
  have magnitude := scaled_eq 1074 x.exponentField x.fraction
  rw [← unity_eq_two_pow] at magnitude
  have units : x.units = if x.exponentField = 0 then x.fraction
      else (0x10000000000000 + x.fraction) * 2 ^ (x.exponentField - 1) := rfl
  rw [← units] at magnitude
  have same : x.value = (if x.negative then -1 else 1) * ((x.units : ℚ) / (unity : ℚ)) :=
    congrArg ((if x.negative then (-1 : ℚ) else 1) * ·) magnitude
  rw [same, signedUnits, signed]
  cases x.negative with
  | true => simp only [if_true, Int.cast_neg, Int.cast_natCast, neg_one_mul, neg_div]
  | false => simp only [Bool.false_eq_true, if_false, Int.cast_natCast, one_mul]

/-- Doubles of equal value are the same up to the sign of a zero. -/
theorem value_eq_iff {x y : Binary64} : x.value = y.value ↔ x.unsigned = y.unsigned := by
  have positive : (unity : ℚ) ≠ 0 := Nat.cast_ne_zero.mpr unity_pos.ne'
  rw [value_eq, value_eq, div_left_inj' positive, Int.cast_inj, signedUnits_eq_iff]

theorem value_of_isZero {x : Binary64} (zero : x.isZero = true) : x.value = (0 : ℤ) := by
  rw [value_eq, signedUnits, units_eq_zero_iff.mpr zero, signed]
  simp only [Nat.cast_zero, neg_zero, ite_self, Int.cast_zero, zero_div]

theorem signed_natAbs (k : ℤ) : signed (k < 0) k.natAbs = k := by
  simp only [signed, decide_eq_true_eq]
  split <;> omega

theorem signed_mul (negative : Bool) (n m : Nat) : signed negative (n * m) = signed negative n * m := by
  cases negative <;> simp [signed]

/-- A double is equal to an integer exactly if it has no fractional part and is cut to that integer. -/
theorem value_eq_int_iff {x : Binary64} {k : ℤ} : x.value = k ↔ x.isWhole = true ∧ x.truncate = k := by
  have positive : (unity : ℚ) ≠ 0 := Nat.cast_ne_zero.mpr unity_pos.ne'
  have counted : x.value = k ↔ x.signedUnits = k * unity := by
    rw [value_eq, div_eq_iff positive]
    exact_mod_cast Iff.rfl
  have cut : x.truncate = signed x.negative (x.units / unity) := rfl
  rw [counted, cut, isWhole, beq_iff_eq, signedUnits]
  constructor
  · rw [mul_unity, signed_inj_iff]
    rintro ⟨units, sign⟩
    rw [units, Nat.mul_mod_left, Nat.mul_div_cancel _ unity_pos]
    refine ⟨rfl, ?_⟩
    rcases sign with alike | none
    · rw [alike, signed_natAbs]
    · have zero : k.natAbs = 0 := (Nat.mul_eq_zero.mp (units ▸ none)).resolve_right unity_pos.ne'
      rw [Int.natAbs_eq_zero.mp zero]
      simp only [signed, Int.natAbs_zero, Nat.cast_zero, neg_zero, ite_self]
  · rintro ⟨whole, rfl⟩
    rw [← signed_mul, Nat.div_mul_cancel (Nat.dvd_of_mod_eq_zero whole)]

end Binary64

namespace Number

def value : Number → ℚ
  | .int n _ => n
  | .float x _ => x.value

/-- A finite double is written as an integer if it is one and counting by ones is possible there, otherwise as
itself. -/
theorem canonical?_cases {x : Binary64} (finite : x.isFinite = true) :
    (∃ k fits, canonical? x = some (.int k fits) ∧ x.value = k ∧ |k| < 2 ^ 53) ∨
      canonical? x = some (.float x finite) ∧ ∀ k : ℤ, x.value = k → ¬|k| < 2 ^ 53 := by
  have size (k : ℤ) : |k| < 2 ^ 53 ↔ k.natAbs < 0x20000000000000 := by
    rw [Int.abs_eq_natAbs]
    omega
  rw [canonical?, dif_pos finite]
  split
  · rename_i small
    rw [Bool.and_eq_true, decide_eq_true_eq] at small
    have fits : -0x8000000000000000 ≤ x.truncate ∧ x.truncate < 0x10000000000000000 := by omega
    rw [ofInt?, dif_pos fits]
    exact Or.inl ⟨_, fits, rfl, Binary64.value_eq_int_iff.mpr ⟨small.1, rfl⟩, (size _).mpr small.2⟩
  · rename_i other
    refine Or.inr ⟨rfl, fun k same below => other ?_⟩
    obtain ⟨whole, rfl⟩ := Binary64.value_eq_int_iff.mp same
    rw [Bool.and_eq_true, decide_eq_true_eq]
    exact ⟨whole, (size _).mp below⟩

theorem canonical?_eq_none_iff {x : Binary64} : canonical? x = none ↔ ¬x.isFinite = true := by
  rw [← canonical?_isSome_iff, Option.not_isSome_iff_eq_none]

theorem finite_of_canonical? {x : Binary64} {n : Number} (canonical : canonical? x = some n) :
    x.isFinite = true := by
  rw [← canonical?_isSome_iff, canonical]
  rfl

/-- A literal has the value of the double it was made from, be it a whole number or a float. -/
theorem value_of_canonical? {x : Binary64} {n : Number} (canonical : canonical? x = some n) : n.value = x.value := by
  have finite := finite_of_canonical? canonical
  rcases canonical?_cases finite with ⟨k, fits, same, exactly, _⟩ | ⟨same, _⟩
  · cases same.symm.trans canonical
    exact exactly.symm
  · cases same.symm.trans canonical
    rfl

/-- The literal is a whole number exactly if the value is one below `2 ^ 53` in size. Greater ones stay floats. -/
theorem isInt_iff_of_canonical? {x : Binary64} {n : Number} (canonical : canonical? x = some n) :
    (∃ k fits, n = .int k fits) ↔ ∃ k : ℤ, x.value = k ∧ |k| < 2 ^ 53 := by
  have finite := finite_of_canonical? canonical
  rcases canonical?_cases finite with ⟨k, fits, same, exactly, below⟩ | ⟨same, great⟩
  · cases same.symm.trans canonical
    exact iff_of_true ⟨k, fits, rfl⟩ ⟨k, exactly, below⟩
  · cases same.symm.trans canonical
    exact iff_of_false (fun ⟨_, _, other⟩ => nomatch other) fun ⟨k, exactly, below⟩ => great k exactly below

/-- Doubles of one value are the same double, unless they are the two zeros, which are both the integer zero. -/
theorem canonical?_eq_of_value {x y : Binary64} (finite : x.isFinite = true) (finite' : y.isFinite = true)
    (same : x.value = y.value) : canonical? x = canonical? y := by
  rcases canonical?_cases finite with ⟨k, fits, atX, exactly, below⟩ | ⟨atX, great⟩
  · rcases canonical?_cases finite' with ⟨k', fits', atY, exactly', _⟩ | ⟨_, great'⟩
    · have integers : k = k' := Int.cast_inj.mp (exactly.symm.trans (same.trans exactly'))
      subst integers
      rw [atX, atY]
    · exact absurd below (great' k (same ▸ exactly))
  · have nonzero (z : Binary64) (equal : x.value = z.value) : ¬z.isZero = true :=
      fun isZero => great 0 (equal.trans (Binary64.value_of_isZero isZero)) (by decide)
    have equal := Binary64.value_eq_iff.mp same
    rw [Binary64.unsigned_of_nonzero (nonzero x rfl), Binary64.unsigned_of_nonzero (nonzero y same)] at equal
    rw [equal]

end Number

/-- A double becomes a number of its own exactly if it is finite, and then one of the same value, which is an integer
exactly if the value is one that can be counted up to. Doubles of one value become one number, the two zeros
included. -/
theorem number_literals_canonical (bits : UInt64) :
    (Number.canonical? (.ofBits bits) = none ↔ Binary64.IsNaN bits ∨ Binary64.IsInfinite bits) ∧
    (∀ n, Number.canonical? (.ofBits bits) = some n →
      n.value = Binary64.valueOfBits bits ∧
        ((∃ k fits, n = .int k fits) ↔ ∃ k : ℤ, Binary64.valueOfBits bits = k ∧ |k| < 2 ^ 53)) ∧
    (∀ other : UInt64, ¬(Binary64.IsNaN bits ∨ Binary64.IsInfinite bits) →
      ¬(Binary64.IsNaN other ∨ Binary64.IsInfinite other) →
        (Binary64.valueOfBits bits = Binary64.valueOfBits other ↔
          Number.canonical? (.ofBits bits) = Number.canonical? (.ofBits other))) ∧
    Number.canonical? (.ofBits 0) = some .zero ∧ Number.canonical? (.ofBits 0x8000000000000000) = some .zero := by
  refine ⟨?_, fun n canonical => ?_, fun other finite finite' => ?_, ?_, ?_⟩
  · rw [Number.canonical?_eq_none_iff, Binary64.isFinite_ofBits_iff, not_not]
  · rw [← Binary64.value_ofBits]
    exact ⟨Number.value_of_canonical? canonical, Number.isInt_iff_of_canonical? canonical⟩
  · rw [← Binary64.isFinite_ofBits_iff] at finite finite'
    rw [← Binary64.value_ofBits, ← Binary64.value_ofBits]
    constructor
    · exact Number.canonical?_eq_of_value finite finite'
    · intro same
      obtain ⟨n, canonical⟩ := Option.isSome_iff_exists.mp ((Number.canonical?_isSome_iff _).mpr finite)
      rw [← Number.value_of_canonical? canonical, Number.value_of_canonical? (same ▸ canonical)]
  · decide +kernel
  · decide +kernel

/-- On one side of the bound stands an integer and on the other a float. The zeros have one value. -/
theorem literals_at_bound :
    Number.canonical? (.ofBits 0xC33FFFFFFFFFFFFF) = some (.int (-9007199254740991) (by decide)) ∧
      ((-9007199254740991 : ℤ) : ℚ) = Binary64.valueOfBits 0xC33FFFFFFFFFFFFF ∧
      Number.canonical? (.ofBits 0x4340000000000000) = some (.float ⟨false, 0x4340000000000000⟩ (by decide)) ∧
      (¬∃ k : ℤ, Binary64.valueOfBits 0x4340000000000000 = k ∧ |k| < 2 ^ 53) ∧
      ¬(Binary64.IsNaN 0 ∨ Binary64.IsInfinite 0) ∧
      ¬(Binary64.IsNaN 0x8000000000000000 ∨ Binary64.IsInfinite 0x8000000000000000) ∧
      Binary64.valueOfBits 0 = Binary64.valueOfBits 0x8000000000000000 := by
  have counted : Number.canonical? (.ofBits 0xC33FFFFFFFFFFFFF) = some (.int (-9007199254740991) (by decide)) := by
    decide +kernel
  have beyond : Number.canonical? (.ofBits 0x4340000000000000) =
      some (.float ⟨false, 0x4340000000000000⟩ (by decide)) := by decide +kernel
  obtain ⟨same, _⟩ := (number_literals_canonical 0xC33FFFFFFFFFFFFF).2.1 _ counted
  obtain ⟨_, whole⟩ := (number_literals_canonical 0x4340000000000000).2.1 _ beyond
  have zeros := (number_literals_canonical 0).2.2.1 0x8000000000000000 (by decide) (by decide)
  refine ⟨counted, same, beyond, fun integer => ?_, by decide, by decide, zeros.mpr (by decide +kernel)⟩
  obtain ⟨_, _, other⟩ := whole.mpr integer
  cases other

end ComputedFields
