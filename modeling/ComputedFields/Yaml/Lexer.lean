import ComputedFields.Yaml.Plain
import ComputedFields.Yaml.Quoted
import ComputedFields.Yaml.Token

namespace ComputedFields.Yaml

/-- Skips blanks, comments and line ends, and says whether a key may start after them. A tab may not stand where a key
could start outside of flow collections. A byte order mark may start a line, and takes up a column there. -/
def skipGaps (inFlow : Bool) (inComment keyAllowed : Bool) : List Spot → Bool × List Spot
  | [] => (keyAllowed, [])
  | s :: rest =>
    if isBreak s.char then skipGaps inFlow false (keyAllowed || !inFlow) rest
    else if inComment then skipGaps inFlow true keyAllowed rest
    else if s.char == ' ' || (s.char == '\t' && (inFlow || !keyAllowed)) then skipGaps inFlow false keyAllowed rest
    else if s.char == '#' then skipGaps inFlow true keyAllowed rest
    else if s.char == '\ufeff' && s.column == 0 then skipGaps inFlow false keyAllowed rest
    else (keyAllowed, s :: rest)

/-- The characters that start something else than a plain scalar. -/
def isIndicator (c : Char) : Bool := "-?:,[]\x7b\x7d#&*!|>'\"%@`".toList.contains c

def startsPlain (inFlow : Bool) (c : Char) (rest : List Spot) : Bool :=
  (!isGap c && !isIndicator c) || (c == '-' && !headIs isBlank rest) ||
    (!inFlow && (c == '?' || c == ':') && !atGap rest)

namespace Margin

/-- Adds a token that ends a line of documents. -/
def pushOutside (margin : Margin) (token : Token) : Option Margin := do
  return (((← (margin.unroll (-1)).dropKey).allowKey false).push token)

/-- Adds a token that may be the start of a key. -/
def pushContent (margin : Margin) (spot : Spot) (token : Token) (keyAllowed : Bool) : Option Margin := do
  return (((← margin.markKey spot).allowKey keyAllowed).push token)

def pushFlowStart (margin : Margin) (spot : Spot) (token : Token) : Option Margin := do
  return (((← margin.markKey spot).openFlow.allowKey true).push token)

def pushFlowEnd (margin : Margin) (token : Token) : Option Margin := do
  return (((← margin.dropKey).closeFlow.allowKey false).push token)

/-- The mark of an item or of a key. In a block it opens a collection, and must stand where a key may start. -/
def pushMark (margin : Margin) (spot : Spot) (opening token : Token) (keyAllowed : Bool) : Option Margin := do
  if !margin.inFlow && !margin.keyAllowed then none
  let margin ← (margin.roll spot.column opening).dropKey
  return (margin.allowKey keyAllowed).push token

/-- The mark of a value. What stands before it on the line becomes the key, if it can be one. -/
def pushValue (margin : Margin) (spot : Spot) : Option Margin :=
  match margin.keys with
  | some start :: _ => some (((margin.insertKey start).allowKey false).push .value)
  | _ =>
    if margin.inFlow then some ((margin.allowKey false).push .value)
    else if margin.keyAllowed then some (((margin.roll spot.column .mapStart).allowKey true).push .value)
    else none

end Margin

namespace Token

/-- The next token, where neither a gap nor the end of the text stands. -/
def scanNext (margin : Margin) (s : Spot) (rest : List Spot) : Option (Margin × List Spot) := do
  let inFlow := margin.inFlow
  if s.column == 0 && s.char == '%' then
    let margin ← (margin.unroll (-1)).dropKey
    let (line, rest) ← scanDirective rest
    return ((margin.allowKey false).push (.directive line), rest)
  else if atMarker ['-', '-', '-'] (s :: rest) then return (← margin.pushOutside .documentStart, rest.drop 2)
  else if atMarker ['.', '.', '.'] (s :: rest) then return (← margin.pushOutside .documentEnd, rest.drop 2)
  else if s.char == '[' then return (← margin.pushFlowStart s .flowListStart, rest)
  else if s.char == '\x7b' then return (← margin.pushFlowStart s .flowMapStart, rest)
  else if s.char == ']' then return (← margin.pushFlowEnd .flowListEnd, rest)
  else if s.char == '\x7d' then return (← margin.pushFlowEnd .flowMapEnd, rest)
  else if s.char == ',' then return (((← margin.dropKey).allowKey true).push .comma, rest)
  else if s.char == '-' && atGap rest then return (← margin.pushMark s .listStart .item true, rest)
  else if s.char == '?' && (inFlow || atGap rest) then return (← margin.pushMark s .mapStart .key (!inFlow), rest)
  else if s.char == ':' && (inFlow || atGap rest) then return (← margin.pushValue s, rest)
  else if s.char == '*' then
    let (name, rest) ← scanName rest
    return (← margin.pushContent s (.reference name) false, rest)
  else if s.char == '&' then
    let (name, rest) ← scanName rest
    return (← margin.pushContent s (.anchor name) false, rest)
  else if s.char == '!' then
    let (label, rest) ← scanTag inFlow (s :: rest)
    return (← margin.pushContent s (.tag label) false, rest)
  else if (s.char == '|' || s.char == '>') && !inFlow then
    let literal := s.char == '|'
    let margin ← margin.dropKey
    let (text, rest) ← scanBlock literal margin.indent rest
    return ((margin.allowKey true).push (.scalar (if literal then .literal else .folded) (String.ofList text)), rest)
  else if s.char == '\'' then
    let (text, rest) ← scanSingle [] {} rest
    return (← margin.pushContent s (.scalar .quoted (String.ofList text)) false, rest)
  else if s.char == '"' then
    let (text, rest) ← scanDouble [] {} rest
    return (← margin.pushContent s (.scalar .quoted (String.ofList text)) false, rest)
  else if startsPlain inFlow s.char rest then
    let (text, broken, rest) ← scanPlain inFlow (margin.indent + 1) [] {} (s :: rest)
    return (← margin.pushContent s (.scalar .plain (String.ofList text)) broken, rest)
  else none

/-- The end of the text closes all blocks. -/
def finish (margin : Margin) : Option (List Token) :=
  if margin.keys.any (·.any (·.required)) then none else some ((margin.unroll (-1)).tokens.reverse)

/-- Scans token after token, at most `limit` of them. -/
def scanFrom : (limit : Nat) → Margin → List Spot → Option (List Token)
  | 0, _, _ => none
  | limit + 1, margin, ss =>
    match skipGaps margin.inFlow false margin.keyAllowed ss with
    | (_, []) => finish margin
    | (keyAllowed, s :: rest) => do
      let margin ← (margin.allowKey keyAllowed).dropFarKeys s
      let (margin, after) ← scanNext (margin.unroll s.column) s rest
      scanFrom limit margin after

/-- The tokens of a text. Each takes at least one character, so the limit is never met. -/
def scan (text : String) : Option (List Token) := do
  let ss ← spots? text.toList
  scanFrom (ss.length + 1) {} ss

end Token

end ComputedFields.Yaml
