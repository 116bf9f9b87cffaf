import ComputedFields.Json.Basic
import ComputedFields.Json.Token
import ComputedFields.Yaml.Token

namespace ComputedFields.Yaml.Scalar

def isNullWord (text : String) : Bool := ["~", "null", "Null", "NULL"].contains text

def isNull (text : String) : Bool := text.isEmpty || isNullWord text

def flag? (text : String) : Option Bool :=
  if ["true", "True", "TRUE"].contains text then some true
  else if ["false", "False", "FALSE"].contains text then some false
  else none

/-- The value of one or more digits to a base up to sixteen. -/
def digits? (base : Nat) (cs : List Char) : Option Nat :=
  if cs.isEmpty then none
  else cs.foldlM (fun n c => (Json.Token.hexValue? c).bind fun d => if d < base then some (n * base + d) else none) 0

/-- Several digits of which the first is a zero. -/
def hasLeadingZero (cs : List Char) : Bool :=
  1 < cs.length && cs.head? == some '0' && cs.all Char.isDigit

def unsigned? : List Char → Option Nat
  | '0' :: 'x' :: cs => digits? 16 cs
  | '0' :: 'o' :: cs => digits? 8 cs
  | '0' :: 'b' :: cs => digits? 2 cs
  | cs => if hasLeadingZero cs then none else digits? 10 cs

def integer? : List Char → Option Int
  | '-' :: cs => (unsigned? cs).map fun n => -(n : Int)
  | '+' :: cs => (unsigned? cs).map fun n => (n : Int)
  | cs => (unsigned? cs).map fun n => (n : Int)

/-- Integers that take 128 bits are known as such, but no value holds them. -/
def isWide (n : Int) : Bool :=
  -0x80000000000000000000000000000000 ≤ n && n < 0x100000000000000000000000000000000

/-- The value of an integer. The inner `none` is a wide one. -/
def intValue? (text : String) : Option (Option Json) :=
  match integer? text.toList with
  | some n =>
    match Number.ofInt? n with
    | some number => some (some (.num number))
    | none => if isWide n then some none else none
  | none => none

def isInfinite (cs : List Char) : Bool := [".inf", ".Inf", ".INF"].contains (String.ofList cs)

/-- The value of a float. Infinities and NaN have none of their own and are null. -/
def floatValue? (text : String) : Option Json :=
  let cs := text.toList
  let body : Option (List Char) :=
    match cs with
    | '+' :: '+' :: _ => none
    | '+' :: '-' :: _ => none
    | '+' :: rest => some rest
    | cs => some cs
  body.bind fun body =>
    if isInfinite body || (cs.head? == some '-' && isInfinite (cs.drop 1)) then some .null
    else if [".nan", ".NaN", ".NAN"].contains text then some .null
    else ((Decimal.ofText? body).bind fun d => Number.ofDouble? d.toBinary64).map Json.num

/-- A plain scalar by its text. -/
def plainValue? (text : String) : Option Json :=
  if isNull text then some .null
  else
    match flag? text with
    | some b => some (.bool b)
    | none =>
      match intValue? text with
      | some value => value
      | none =>
        let unsignedPart := match text.toList with | '-' :: cs => cs | '+' :: cs => cs | cs => cs
        if hasLeadingZero unsignedPart then some (.str text)
        else some ((floatValue? text).getD (.str text))

/-- The value of a scalar. The tags of the common types force their reading, other tags leave a text. The tags of an
application have no value, and count for nothing if they spell no characters. -/
def value? (tag : Option TagName) (style : Style) (text : String) : Option Json :=
  let untagged := if style = .plain then plainValue? text else some (.str text)
  match tag with
  | none => untagged
  | some tag =>
    if tag = .common "bool" then (flag? text).map Json.bool
    else if tag = .common "int" then (intValue? text).join
    else if tag = .common "float" then floatValue? text
    else if tag = .common "null" then if isNullWord text then some .null else none
    else if tag.localName?.isSome then none
    else if tag.isLocal then untagged
    else some (.str text)

end ComputedFields.Yaml.Scalar
