import ComputedFields.Yaml.Folding

namespace ComputedFields.Yaml

def isFlowMark (c : Char) : Bool := c == ',' || c == '[' || c == ']' || c == '\x7b' || c == '\x7d'

def headIs (p : Char → Bool) : List Spot → Bool
  | [] => false
  | s :: _ => p s.char

/-- A scalar without quotes: its text, whether a line end follows it, and the rest. It ends at a colon before a gap, at
a comment, at a mark of the flow style inside one, and at a line that is indented too little. -/
def scanPlain (inFlow : Bool) (indent : Int) (done : List Char) (fold : Fold) :
    List Spot → Option (List Char × Bool × List Spot)
  | [] => some (done.reverse, fold.broken, [])
  | s :: rest =>
    if isBlank s.char then
      if fold.broken && s.column < indent && s.char == '\t' then none
      else scanPlain inFlow indent done (fold.add s.char) rest
    else if isBreak s.char then scanPlain inFlow indent done (fold.add s.char) rest
    else if !fold.isEmpty &&
        ((!inFlow && s.column < indent) || atDocumentMarker (s :: rest) || s.char == '#') then
      some (done.reverse, fold.broken, s :: rest)
    else if inFlow && s.char == ':' && headIs (fun c => isFlowMark c || c == '?') rest then none
    else if (s.char == ':' && atGap rest) || (inFlow && isFlowMark s.char) then
      some (done.reverse, fold.broken, s :: rest)
    else scanPlain inFlow indent (extend done fold s.char) {} rest

end ComputedFields.Yaml
