import ComputedFields.Number.Decimal
import ComputedFields.Number.Shortest

namespace ComputedFields

/-- A number of a document: an integer that fits 64 bits with or without a sign, or a finite double. -/
inductive Number where
  | int (n : Int) (fits : -0x8000000000000000 ≤ n ∧ n < 0x10000000000000000)
  | float (x : Binary64) (finite : x.isFinite = true)
  deriving DecidableEq

namespace Number

def ofInt? (n : Int) : Option Number :=
  if fits : -0x8000000000000000 ≤ n ∧ n < 0x10000000000000000 then some (.int n fits) else none

def ofDouble? (x : Binary64) : Option Number :=
  if finite : x.isFinite = true then some (.float x finite) else none

def zero : Number := .int 0 (by decide)

/-- The number as a double, rounded if it is an integer with too many digits. -/
def toDouble : Number → Binary64
  | .int n _ => .ofInt n
  | .float x _ => x

/-- A double as a number of its own: an integer if it is whole and below `2 ^ 53`, where doubles still count by ones.
An infinity or a NaN is none. -/
def canonical? (x : Binary64) : Option Number :=
  if finite : x.isFinite = true then
    if x.isWhole && x.truncate.natAbs < 0x20000000000000 then ofInt? x.truncate
    else some (.float x finite)
  else none

def text : Number → String
  | .int n _ => toString n
  | .float x _ => x.text

/-- Equality as numbers compare in a result: an integer never equals a float, and the two float zeros are equal. -/
def same : Number → Number → Bool
  | .int m _, .int n _ => m = n
  | .float x _, .float y _ => x.sameValue y
  | _, _ => false

end Number

end ComputedFields
