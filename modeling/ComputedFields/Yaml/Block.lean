import ComputedFields.Yaml.Spot

namespace ComputedFields.Yaml

/-- What is kept of the line ends that close a block scalar. -/
inductive Chomp where
  | strip
  | clip
  | keep

def Chomp.of? : Char → Option Chomp
  | '+' => some .keep
  | '-' => some .strip
  | _ => none

def indentDigit? (c : Char) : Option Nat :=
  if '1' ≤ c && c ≤ '9' then some (c.toNat - 48) else none

/-- The indicators after the mark of a block scalar, in either order. A zero is none of them. -/
def scanHeader : List Spot → Chomp × Option Nat × List Spot
  | [] => (.clip, none, [])
  | s :: rest =>
    match Chomp.of? s.char, indentDigit? s.char with
    | some chomp, _ =>
      match rest with
      | d :: more => if (indentDigit? d.char).isSome then (chomp, indentDigit? d.char, more) else (chomp, none, rest)
      | [] => (chomp, none, [])
    | none, some n =>
      match rest with
      | c :: more =>
        match Chomp.of? c.char with
        | some chomp => (chomp, some n, more)
        | none => (.clip, some n, rest)
      | [] => (.clip, some n, [])
    | none, none => (.clip, none, s :: rest)

/-- Nothing but blanks and a comment up to the end of the line; the rest is what follows the line end. -/
def scanLineEnd (ss : List Spot) : Option (List Spot) :=
  let ss := ss.dropWhile fun s => isBlank s.char
  let ss := if ss.head?.any (·.char == '#') then ss.dropWhile (fun s => !isBreak s.char) else ss
  match ss with
  | [] => some []
  | s :: rest => if isBreak s.char then some rest else none

/-- The line ends before the next line with content, and how far the lines reach in. No `indent` stands for one that is
still to be found. A tab must not stand in the indentation. -/
def scanEmptyLines (indent : Option Nat) (breaks : List Char) (widest : Nat) :
    List Spot → Option (List Char × Nat × List Spot)
  | [] => some (breaks, widest, [])
  | s :: rest =>
    let inside := indent.all (s.column < ·)
    if inside && s.char == ' ' then scanEmptyLines indent breaks widest rest
    else if inside && s.char == '\t' then none
    else if isBreak s.char then scanEmptyLines indent (breaks ++ [s.char]) (max widest s.column) rest
    else some (breaks, max widest s.column, s :: rest)

/-- The content read so far, the line end after it, the empty lines after that, and whether the last line started with a
blank. -/
structure BlockText where
  text : List Char := []
  lineEnd : List Char := []
  empty : List Char := []
  indented : Bool := false

/-- Adds a line. Folding turns a line feed between two lines that start with no blank into a blank, or drops it before
empty lines. -/
def BlockText.addLine (literal : Bool) (block : BlockText) (line : List Char) : List Char :=
  let indented := line.head?.any isBlank
  let joint :=
    if !literal && block.lineEnd == ['\n'] && !block.indented && !indented then
      if block.empty.isEmpty then [' '] else []
    else block.lineEnd
  block.text ++ joint ++ block.empty ++ line

def scanLines (literal : Bool) (indent : Nat) (block : BlockText) (ss : List Spot) :
    Option (BlockText × List Spot) :=
  match ss.head? with
  | none => some (block, [])
  | some s =>
    if s.column = indent then
      let line := (ss.takeWhile fun s => !isBreak s.char).map (·.char)
      let (lineEnd, after) :=
        match ss.drop line.length with
        | [] => ([], [])
        | e :: after => ([e.char], after)
      match scanEmptyLines (some indent) [] 0 after with
      | none => none
      | some (empty, _, next) =>
        let block : BlockText := ⟨block.addLine literal line, lineEnd, empty, line.head?.any isBlank⟩
        if next.length < ss.length then scanLines literal indent block next else none
    else some (block, ss)
termination_by ss.length

/-- A block scalar after its mark, inside a block indented by `parent`. -/
def scanBlock (literal : Bool) (parent : Int) (ss : List Spot) : Option (List Char × List Spot) := do
  let (chomp, increment, afterHeader) := scanHeader ss
  let body ← scanLineEnd afterHeader
  let given := increment.map fun n => (if 0 ≤ parent then parent + n else n).toNat
  let (empty, widest, content) ← scanEmptyLines given [] 0 body
  let indent := given.getD (max (max widest (parent + 1).toNat) 1)
  let (block, rest) ← scanLines literal indent { empty := empty } content
  let text :=
    match chomp with
    | .strip => block.text
    | .clip => block.text ++ block.lineEnd
    | .keep => block.text ++ block.lineEnd ++ block.empty
  return (text, rest)

end ComputedFields.Yaml
