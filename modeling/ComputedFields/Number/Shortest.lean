import ComputedFields.Number.Binary64

namespace ComputedFields.Binary64

/-- The exponent of the first decimal digit of `units` least positive doubles, for a positive count. -/
def decimalExponent (units : Nat) : Int :=
  (Nat.toDigits 10 (units * Nat.pow 10 330 / unity)).length - 331

/-- Every number in the rounding interval of these magnitude bits reads back as them: `digits * scale / den` against
the midpoints to the two neighbours, which belong to the interval if the significand is even. -/
def readsBack (magnitude digits scale den : Nat) : Bool :=
  let here := unitsOf magnitude
  let low := (unitsOf (magnitude - 1) + here) * scale
  let high := (here + unitsOf (magnitude + 1)) * scale
  let twice := 2 * digits * den
  if magnitude % 2 = 0 then low ≤ twice && twice ≤ high else low < twice && twice < high

/-- The number of `count` digits that reads back and lies nearest, if there is one. A tie goes to the even digit. -/
def ofCount? (magnitude : Nat) (first : Int) (count : Nat) : Option (Nat × Int) :=
  let last := first - count + 1
  let scale := Nat.pow 10 (-last).toNat
  let den := unity * Nat.pow 10 last.toNat
  let num := unitsOf magnitude * scale
  let floor := num / den
  let nearer := roundHalfEven num den
  let farther := if nearer = floor then floor + 1 else floor
  if readsBack magnitude nearer scale den then some (nearer, last)
  else if readsBack magnitude farther scale den then some (farther, last)
  else none

/-- The fewest decimal digits that read back as the double, with the exponent of the last one. Seventeen always
do. -/
def shortest (x : Binary64) : Nat × Int :=
  let first := decimalExponent x.units
  ((List.range 17).findSome? fun i => ofCount? x.magnitude.val first (i + 1)).getD (0, 0)

def dropZeros (cs : List Char) : List Char := (cs.reverse.dropWhile (· == '0')).reverse

/-- Digits with a point: after the digit of exponent zero, and with at least one digit on either side. -/
def positional (digits : List Char) (exponent : Int) : List Char :=
  if exponent < 0 then
    ['0', '.'] ++ List.replicate (-exponent - 1).toNat '0' ++ digits
  else
    let whole := exponent.toNat + 1
    let fraction := digits.drop whole
    digits.take whole ++ List.replicate (whole - digits.length) '0' ++ ['.'] ++
      (if fraction.isEmpty then ['0'] else fraction)

def scientific (digits : List Char) (exponent : Int) : List Char :=
  let fraction := digits.drop 1
  digits.take 1 ++ (if fraction.isEmpty then [] else '.' :: fraction) ++
    ['e', if exponent < 0 then '-' else '+'] ++ Nat.toDigits 10 exponent.natAbs

/-- A finite double as text: its shortest digits, positional from `1e-5` up to but not including `1e16`. -/
def text (x : Binary64) : String :=
  let sign := if x.negative then ['-'] else []
  let body :=
    if x.isZero then ['0', '.', '0']
    else
      let (number, last) := x.shortest
      let written := Nat.toDigits 10 number
      let exponent := last + written.length - 1
      let digits := dropZeros written
      if -5 ≤ exponent && exponent ≤ 15 then positional digits exponent else scientific digits exponent
  String.ofList (sign ++ body)

end ComputedFields.Binary64
