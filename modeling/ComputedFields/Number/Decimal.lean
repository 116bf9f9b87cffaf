import ComputedFields.Number.Binary64

namespace ComputedFields

/-- The number `± digits * 10 ^ exponent`. -/
structure Decimal where
  negative : Bool
  digits : Nat
  exponent : Int

namespace Decimal

def ofDigits (cs : List Char) : Nat :=
  cs.foldl (fun n c => 10 * n + (c.toNat - 48)) 0

/-- The double nearest to a decimal. Exponents far beyond the doubles are settled first, so that no power is built
that the answer does not need. -/
def toBinary64 (d : Decimal) : Binary64 :=
  if d.digits = 0 || d.exponent + Nat.log2 d.digits < -400 then ⟨d.negative, 0⟩
  else if 400 < d.exponent then ⟨d.negative, Fin.ofNat _ Binary64.infinityBits⟩
  else if 0 ≤ d.exponent then Binary64.ofQuotient d.negative (d.digits * Nat.pow 10 d.exponent.toNat) 1
  else Binary64.ofQuotient d.negative d.digits (Nat.pow 10 (-d.exponent).toNat)

def signed (cs : List Char) : Bool × List Char :=
  match cs with
  | '-' :: rest => (true, rest)
  | '+' :: rest => (false, rest)
  | _ => (false, cs)

/-- What follows the digits of a numeral: nothing, or an exponent. -/
def exponent? : List Char → Option Int
  | [] => some 0
  | mark :: rest =>
    let (negative, digits) := signed rest
    if (mark = 'e' || mark = 'E') && !digits.isEmpty && digits.all Char.isDigit then
      some (if negative then -(ofDigits digits : Int) else ofDigits digits)
    else none

/-- Reads a numeral with an optional sign, an optional point and an optional exponent. Either side of the point may
lack its digits, but not both. -/
def ofText? (cs : List Char) : Option Decimal :=
  let (negative, body) := signed cs
  let whole := body.takeWhile Char.isDigit
  let (fraction, tail) :=
    match body.dropWhile Char.isDigit with
    | '.' :: rest => (rest.takeWhile Char.isDigit, rest.dropWhile Char.isDigit)
    | rest => ([], rest)
  if whole.isEmpty && fraction.isEmpty then none
  else (exponent? tail).map fun e => ⟨negative, ofDigits (whole ++ fraction), e - fraction.length⟩

end Decimal

end ComputedFields
