import ComputedFields.Json.Token
import ComputedFields.Yaml.Folding

namespace ComputedFields.Yaml

def simpleEscape? : Char → Option Char
  | '0' => some '\x00'
  | 'a' => some '\x07'
  | 'b' => some '\x08'
  | 't' => some '\t'
  | '\t' => some '\t'
  | 'n' => some '\n'
  | 'v' => some '\x0b'
  | 'f' => some '\x0c'
  | 'r' => some '\r'
  | 'e' => some '\x1b'
  | ' ' => some ' '
  | '"' => some '"'
  | '/' => some '/'
  | '\\' => some '\\'
  | 'N' => some '\u0085'
  | '_' => some '\u00a0'
  | 'L' => some '\u2028'
  | 'P' => some '\u2029'
  | _ => none

/-- How many hexadecimal digits follow an escape. -/
def escapeWidth : Char → Nat
  | 'x' => 2
  | 'u' => 4
  | 'U' => 8
  | _ => 0

def codePoint? (ss : List Spot) (width : Nat) : Option Char := do
  let digits := ss.take width
  if digits.length < width then none
  let code ← digits.foldlM (fun n s => (Json.Token.hexValue? s.char).map (n * 16 + ·)) 0
  if code.isValidChar then some (Char.ofNat code) else none

/-- The text after a single quote up to the closing one. Two quotes stand for one. -/
def scanSingle (done : List Char) (fold : Fold) : List Spot → Option (List Char × List Spot)
  | [] => none
  | s :: rest =>
    if isGap s.char then scanSingle done (fold.add s.char) rest
    else if atDocumentMarker (s :: rest) then none
    else if s.char = '\'' then
      match rest with
      | ⟨'\'', _, _, _⟩ :: more => scanSingle (extend done fold '\'') {} more
      | _ => some (done.reverse ++ fold.text, rest)
    else scanSingle (extend done fold s.char) {} rest

/-- The text after a double quote up to the closing one. -/
def scanDouble (done : List Char) (fold : Fold) : List Spot → Option (List Char × List Spot)
  | [] => none
  | s :: rest =>
    if isGap s.char then scanDouble done (fold.add s.char) rest
    else if atDocumentMarker (s :: rest) then none
    else if s.char = '"' then some (done.reverse ++ fold.text, rest)
    else if s.char = '\\' then
      match rest with
      | [] => none
      | e :: more =>
        if isBreak e.char then scanDouble (fold.text.reverse ++ done) .escapedBreak more
        else
          match simpleEscape? e.char with
          | some c => scanDouble (extend done fold c) {} more
          | none =>
            match escapeWidth e.char with
            | 0 => none
            | width + 1 =>
              match codePoint? more (width + 1) with
              | some c => scanDouble (extend done fold c) {} (more.drop (width + 1))
              | none => none
    else scanDouble (extend done fold s.char) {} rest
termination_by ss => ss.length
decreasing_by all_goals (simp only [List.length_cons, List.length_drop]; omega)

end ComputedFields.Yaml
