namespace ComputedFields

/-- A double, by its sign and by its other 63 bits: the exponent field above 52 bits of fraction. Of two finite
doubles of one sign, the one with the greater magnitude bits is the farther from zero. -/
structure Binary64 where
  negative : Bool
  magnitude : Fin 0x8000000000000000
  deriving DecidableEq

namespace Binary64

def ofBits (bits : UInt64) : Binary64 where
  negative := 0x8000000000000000 ≤ bits.toNat
  magnitude := ⟨bits.toNat % 0x8000000000000000, Nat.mod_lt _ (by decide)⟩

def exponentField (x : Binary64) : Nat := x.magnitude.val / 0x10000000000000

def fraction (x : Binary64) : Nat := x.magnitude.val % 0x10000000000000

/-- Neither an infinity nor a NaN. -/
def isFinite (x : Binary64) : Bool := x.exponentField < 0x7FF

def isZero (x : Binary64) : Bool := x.magnitude.val == 0

/-- The least positive double is `2 ^ -1074`, and every finite double is a whole number of them. This is how many
of them magnitude bits stand for. -/
def unitsOf (magnitude : Nat) : Nat :=
  let field := magnitude / 0x10000000000000
  let fraction := magnitude % 0x10000000000000
  if field = 0 then fraction else (0x10000000000000 + fraction) * Nat.pow 2 (field - 1)

def units (x : Binary64) : Nat := unitsOf x.magnitude.val

/-- The number one, counted in least positive doubles. -/
def unity : Nat := Nat.pow 2 1074

/-- A finite double without a fractional part. -/
def isWhole (x : Binary64) : Bool := x.units % unity == 0

/-- The part before the point, with the sign. -/
def truncate (x : Binary64) : Int :=
  if x.negative then -(x.units / unity : Nat) else (x.units / unity : Nat)

/-- Equality of numbers: the two zeros are one number. -/
def sameValue (x y : Binary64) : Bool :=
  x = y || (x.isZero && y.isZero)

/-- The whole number nearest to `num / den`, the even one if two are. -/
def roundHalfEven (num den : Nat) : Nat :=
  let floor := num / den
  let excess := 2 * (num % den)
  if excess < den then floor
  else if den < excess then floor + 1
  else floor + floor % 2

/-- The magnitude bits nearest to `num / den`. A significand that rounds up to the next power of two carries into
the exponent field by itself. -/
def nearest (num den : Nat) : Nat :=
  let scaled := num * unity
  let shift := Nat.log2 (scaled / den) - 52
  shift * 0x10000000000000 + roundHalfEven scaled (den * Nat.pow 2 shift)

def infinityBits : Nat := 0x7FF0000000000000

/-- The double nearest to `num / den`, infinite beyond the greatest finite one. -/
def ofQuotient (negative : Bool) (num den : Nat) : Binary64 where
  negative := negative
  magnitude := ⟨min (nearest num den) infinityBits,
    Nat.lt_of_le_of_lt (Nat.min_le_right _ _) (by decide)⟩

def ofInt (n : Int) : Binary64 := ofQuotient (n < 0) n.natAbs 1

end Binary64

end ComputedFields
