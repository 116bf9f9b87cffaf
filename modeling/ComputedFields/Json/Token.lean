import ComputedFields.Json.Draft

namespace ComputedFields.Json

inductive Mark where
  | listStart
  | listEnd
  | objectStart
  | objectEnd
  | comma
  | colon

def Mark.of? : Char → Option Mark
  | '[' => some .listStart
  | ']' => some .listEnd
  | '\x7b' => some .objectStart
  | '\x7d' => some .objectEnd
  | ',' => some .comma
  | ':' => some .colon
  | _ => none

/-- The pieces a text is made of. After a `cut` or a `junk` there are no more. -/
inductive Token where
  | mark (m : Mark)
  | text (s : Option String)
  | scalar (d : Draft)
  | cut (inText : Bool) (read skip : Fault)
  | junk

/-- The blanks that may stand between tokens. -/
def isSpace (c : Char) : Bool := c == ' ' || c == '\n' || c == '\t' || c == '\r'

namespace Token

/-- A text that breaks off: who passes over it does not mind half a surrogate pair that stood before. -/
def cutText (spoilt : Bool) (fault : Fault) : Token :=
  .cut true (if spoilt then .malformed else fault) fault

def hexValue? (c : Char) : Option Nat :=
  if c.isDigit then some (c.toNat - 48)
  else if 'a' ≤ c && c ≤ 'f' then some (c.toNat - 87)
  else if 'A' ≤ c && c ≤ 'F' then some (c.toNat - 55)
  else none

/-- Four hexadecimal digits. The text counts as ended if it has fewer than four bytes left. -/
def hexUnit : List Char → Except Fault Nat
  | a :: b :: c :: d :: _ =>
    match hexValue? a, hexValue? b, hexValue? c, hexValue? d with
    | some w, some x, some y, some z => .ok (((w * 16 + x) * 16 + y) * 16 + z)
    | _, _, _, _ => .error .malformed
  | cs => if cs.foldl (fun n c => n + c.utf8Size) 0 < 4 then .error .truncated else .error .malformed

def shortEscape? : Char → Option Char
  | '"' => some '"'
  | '\\' => some '\\'
  | '/' => some '/'
  | 'b' => some '\x08'
  | 'f' => some '\x0c'
  | 'n' => some '\n'
  | 'r' => some '\r'
  | 't' => some '\t'
  | _ => none

/-- The second half of a surrogate pair, if it follows. -/
def lowSurrogate? : List Char → Option Nat
  | '\\' :: 'u' :: rest =>
    match hexUnit rest with
    | .ok low => if 0xDC00 ≤ low && low ≤ 0xDFFF then some low else none
    | .error _ => none
  | _ => none

/-- The characters of a text up to its closing quote, with `done` read before, the latest first. A text is `spoilt` once
half a surrogate pair stands alone in it. -/
def scanText (spoilt : Bool) (done : List Char) : List Char → Token × List Char
  | [] => (cutText spoilt .truncated, [])
  | '"' :: rest => (.text (if spoilt then none else some (String.ofList done.reverse)), rest)
  | '\\' :: rest =>
    match rest with
    | [] => (cutText spoilt .truncated, [])
    | 'u' :: digits =>
      match hexUnit digits with
      | .error fault => (cutText spoilt fault, [])
      | .ok unit =>
        let after := digits.drop 4
        if unit < 0xD800 || 0xDFFF < unit then scanText spoilt (Char.ofNat unit :: done) after
        else if 0xDC00 ≤ unit then scanText true done after
        else
          match lowSurrogate? after with
          | some low =>
            let c := Char.ofNat ((unit - 0xD800) * 0x400 + (low - 0xDC00) + 0x10000)
            scanText spoilt (c :: done) (after.drop 6)
          | none => if endsInEscape after then (cutText spoilt .truncated, []) else scanText true done after
    | c :: more =>
      match shortEscape? c with
      | some meant => scanText spoilt (meant :: done) more
      | none => (cutText spoilt .malformed, [])
  | c :: rest => if c.toNat < 0x20 then (cutText spoilt .malformed, []) else scanText spoilt (c :: done) rest
termination_by cs => cs.length
decreasing_by all_goals (simp only [List.length_cons, List.length_drop]; omega)
where
  /-- The text ends before it can be told whether the second half follows. -/
  endsInEscape : List Char → Bool
    | [] => true
    | ['\\'] => true
    | '\\' :: 'u' :: rest => (hexUnit rest matches .error .truncated)
    | _ => false

/-- A numeral that stops where a digit has to follow. Who passes over it does not care whether the text ended there. -/
def lacksDigit (rest : List Char) : Token × List Char :=
  (.cut false (if rest.isEmpty then .truncated else .malformed) .malformed, [])

def ofNumber? : Option Number → Token
  | some n => .scalar (.num n)
  | none => .scalar .unreadable

/-- A numeral without point and exponent is an integer if it fits. Minus zero is a float. -/
def ofInteger (negative : Bool) (n : Nat) : Token :=
  let fitting := if negative then (if n = 0 then none else Number.ofInt? (-n)) else Number.ofInt? n
  ofNumber? (fitting <|> Number.ofDouble? (Decimal.toBinary64 ⟨negative, n, 0⟩))

def scanExponent (negative : Bool) (whole fraction cs : List Char) : Token × List Char :=
  let digits := Decimal.ofDigits (whole ++ fraction)
  let float (exponent : Int) :=
    ofNumber? (Number.ofDouble? (Decimal.toBinary64 ⟨negative, digits, exponent - fraction.length⟩))
  match cs with
  | c :: rest =>
    if c = 'e' || c = 'E' then
      let (below, tail) := Decimal.signed rest
      let exponent := tail.takeWhile Char.isDigit
      if exponent.isEmpty then lacksDigit tail
      else
        let n : Int := Decimal.ofDigits exponent
        (float (if below then -n else n), tail.drop exponent.length)
    else (if fraction.isEmpty then ofInteger negative digits else float 0, cs)
  | [] => (if fraction.isEmpty then ofInteger negative digits else float 0, [])

/-- A numeral after its sign. A leading zero stands alone before the point. -/
def scanNumber (negative : Bool) (cs : List Char) : Token × List Char :=
  let whole := if cs.head? = some '0' then ['0'] else cs.takeWhile Char.isDigit
  if whole.isEmpty then lacksDigit cs
  else
    match cs.drop whole.length with
    | '.' :: rest =>
      let fraction := rest.takeWhile Char.isDigit
      if fraction.isEmpty then lacksDigit rest
      else scanExponent negative whole fraction (rest.drop fraction.length)
    | c :: rest =>
      if c.isDigit then (.cut false .malformed .malformed, [])
      else scanExponent negative whole [] (c :: rest)
    | [] => scanExponent negative whole [] []

def scanWord (word : List Char) (d : Draft) (cs : List Char) : Token × List Char :=
  if word.isPrefixOf cs then (.scalar d, cs.drop word.length)
  else
    let fault : Fault := if cs.isPrefixOf word then .truncated else .malformed
    (.cut false fault fault, [])

def scanLeaf (c : Char) (rest : List Char) : Token × List Char :=
  match c with
  | '"' => scanText false [] rest
  | '-' => scanNumber true rest
  | 'n' => scanWord ['u', 'l', 'l'] .null rest
  | 't' => scanWord ['r', 'u', 'e'] (.bool true) rest
  | 'f' => scanWord ['a', 'l', 's', 'e'] (.bool false) rest
  | c => if c.isDigit then scanNumber false (c :: rest) else (.junk, [])

/-- Scans token after token. The text is always shorter than `limit`, so that it is never met. -/
def scanFrom : (limit : Nat) → List Char → List Token
  | 0, _ => []
  | _, [] => []
  | limit + 1, c :: rest =>
    if isSpace c then scanFrom limit rest
    else
      match Mark.of? c with
      | some m => .mark m :: scanFrom limit rest
      | none =>
        match scanLeaf c rest with
        | (token, after) => token :: scanFrom limit after

/-- The tokens of a text, up to the first that is none. -/
def scan (cs : List Char) : List Token := scanFrom (cs.length + 1) cs

end Token

end ComputedFields.Json
