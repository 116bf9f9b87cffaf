namespace ComputedFields.Yaml

/-- A character with its place, counted from zero. The column counts the characters before it on the line, the offset
their octets. -/
structure Spot where
  char : Char
  line : Nat
  column : Nat
  offset : Nat

def isBreak (c : Char) : Bool := c == '\n' || c == '\u2028' || c == '\u2029'

def isBlank (c : Char) : Bool := c == ' ' || c == '\t'

def isGap (c : Char) : Bool := isBlank c || isBreak c

/-- The characters that a document may be made of. -/
def isAllowed (c : Char) : Bool :=
  let n := c.toNat
  n == 0x09 || n == 0x0A || n == 0x0D || (0x20 ≤ n && n ≤ 0x7E) || n == 0x85 || (0xA0 ≤ n && n ≤ 0xD7FF) ||
    (0xE000 ≤ n && n ≤ 0xFFFD) || 0x10000 ≤ n

/-- All line ends become line feeds, but for the line and paragraph separators, which stay what they are. -/
def unifyBreaks : List Char → List Char
  | [] => []
  | '\r' :: '\n' :: rest => '\n' :: unifyBreaks rest
  | '\r' :: rest => '\n' :: unifyBreaks rest
  | '\u0085' :: rest => '\n' :: unifyBreaks rest
  | c :: rest => c :: unifyBreaks rest

def place (line column offset : Nat) : List Char → List Spot
  | [] => []
  | c :: rest =>
    ⟨c, line, column, offset⟩ ::
      if isBreak c then place (line + 1) 0 0 rest else place line (column + 1) (offset + c.utf8Size) rest

/-- The characters of a text with their places. -/
def spots? (cs : List Char) : Option (List Spot) :=
  if cs.all isAllowed then some (place 0 0 0 (unifyBreaks cs)) else none

/-- What follows is a blank, a line end or nothing. -/
def atGap : List Spot → Bool
  | [] => true
  | s :: _ => isGap s.char

def startsWith (cs : List Char) (ss : List Spot) : Bool :=
  (ss.take cs.length).map (·.char) == cs

def atMarker (mark : List Char) (ss : List Spot) : Bool :=
  startsWith mark ss && atGap (ss.drop 3) && (ss.head?.map (·.column)) == some 0

/-- A line that starts or ends a document. -/
def atDocumentMarker (ss : List Spot) : Bool :=
  atMarker ['-', '-', '-'] ss || atMarker ['.', '.', '.'] ss

end ComputedFields.Yaml
