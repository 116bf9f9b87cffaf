import ComputedFields.Yaml.Tag

namespace ComputedFields.Yaml

/-- How a scalar is written. -/
inductive Style where
  | plain
  | quoted
  | literal
  | folded
  deriving DecidableEq

inductive Token where
  | directive (directive : Directive)
  | documentStart
  | documentEnd
  | listStart
  | mapStart
  | blockEnd
  | flowListStart
  | flowListEnd
  | flowMapStart
  | flowMapEnd
  | item
  | comma
  | key
  | value
  | reference (name : String)
  | anchor (name : String)
  | tag (tag : Tag)
  | scalar (style : Style) (text : String)

/-- A place where a key may have started without a mark for it, and how many tokens stand before it. It has to become a
key if nothing else can start there. -/
structure KeyStart where
  tokens : Nat
  spot : Spot
  required : Bool

/-- A key that is not marked lies on one line and within 1024 octets. -/
def KeyStart.reaches (start : KeyStart) (spot : Spot) : Bool :=
  start.spot.line == spot.line && spot.offset ≤ start.spot.offset + 1024

/-- The tokens found so far, the latest first, and how many they are, with the open blocks and, for each open flow
collection and for the block around them, the possible start of a key. -/
structure Margin where
  tokens : List Token := []
  count : Nat := 0
  indent : Int := -1
  outer : List Int := []
  keys : List (Option KeyStart) := [none]
  keyAllowed : Bool := true

namespace Margin

def inFlow (margin : Margin) : Bool := margin.keys matches _ :: _ :: _

def push (margin : Margin) (token : Token) : Margin :=
  { margin with tokens := token :: margin.tokens, count := margin.count + 1 }

def allowKey (margin : Margin) (allowed : Bool) : Margin := { margin with keyAllowed := allowed }

/-- Closes the blocks that are indented deeper than a column. -/
def closeBlocks (column : Int) : List Int → Margin → Margin
  | [], margin => margin
  | next :: outer, margin =>
    if column < margin.indent then
      closeBlocks column outer { margin.push .blockEnd with indent := next, outer := outer }
    else margin

def unroll (margin : Margin) (column : Int) : Margin :=
  if margin.inFlow then margin else closeBlocks column margin.outer margin

/-- Opens a block at a column, unless there is one. -/
def roll (margin : Margin) (column : Nat) (token : Token) : Margin :=
  if !margin.inFlow && margin.indent < column then
    { margin.push token with indent := column, outer := margin.indent :: margin.outer }
  else margin

/-- Gives up the possible start of a key. -/
def dropKey (margin : Margin) : Option Margin :=
  match margin.keys with
  | some start :: keys => if start.required then none else some { margin with keys := none :: keys }
  | _ => some margin

/-- A key may start here. -/
def markKey (margin : Margin) (spot : Spot) : Option Margin :=
  if margin.keyAllowed then do
    let required := !margin.inFlow && margin.indent == spot.column
    let margin ← margin.dropKey
    return { margin with keys := some ⟨margin.count, spot, required⟩ :: margin.keys.drop 1 }
  else some margin

/-- Gives up every start of a key that does not reach a place. -/
def dropFarKeys (margin : Margin) (spot : Spot) : Option Margin := do
  let keys ← margin.keys.mapM fun key =>
    match key with
    | none => some none
    | some start =>
      if start.reaches spot then some (some start) else if start.required then none else some none
  return { margin with keys := keys }

/-- Makes a key of what was found since a place, and a mapping around it if none is open there. -/
def insertKey (margin : Margin) (start : KeyStart) : Margin :=
  let since := margin.count - start.tokens
  let before := { margin with
    tokens := margin.tokens.drop since, count := start.tokens, keys := none :: margin.keys.drop 1 }
  let opened := (before.roll start.spot.column .mapStart).push .key
  { opened with tokens := margin.tokens.take since ++ opened.tokens, count := opened.count + since }

def openFlow (margin : Margin) : Margin := { margin with keys := none :: margin.keys }

def closeFlow (margin : Margin) : Margin :=
  if margin.inFlow then { margin with keys := margin.keys.drop 1 } else margin

end Margin

end ComputedFields.Yaml
