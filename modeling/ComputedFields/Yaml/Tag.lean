import ComputedFields.Json.Token
import ComputedFields.Yaml.Block

namespace ComputedFields.Yaml

/-- A tag, or a part of one. Escapes in it stand for octets, and these need not spell characters. -/
structure TagName where
  octets : List UInt8
  deriving DecidableEq

namespace TagName

/-- A tag ends before its first zero octet. -/
def ofOctets (octets : List UInt8) : TagName := ⟨octets.takeWhile (· != 0)⟩

def ofText (text : String) : TagName := ofOctets text.toUTF8.toList

def append (a b : TagName) : TagName := ⟨a.octets ++ b.octets⟩

/-- A tag that an application defines for itself starts with an exclamation mark. -/
def isLocal (tag : TagName) : Bool := tag.octets.head? == some 0x21

/-- What follows the exclamation mark of a local tag, if it spells characters. -/
def localName? (tag : TagName) : Option String :=
  match tag.octets with
  | 0x21 :: name => String.fromUTF8? ⟨name.toArray⟩
  | _ => none

/-- The common types have tags of their own. -/
def common (word : String) : TagName := ofText ("tag:yaml.org,2002:" ++ word)

end TagName

/-- A tag as it is written: a handle, which the document may define, and what follows it. An empty handle says that the
rest is the whole tag. -/
structure Tag where
  handle : String
  suffix : TagName

def isWordChar (c : Char) : Bool := c.isAlphanum || c == '_' || c == '-'

def isUriChar (whole : Bool) (c : Char) : Bool :=
  isWordChar c || ";/?:@&=+$.!~*'()".toList.contains c || (whole && ",[]".toList.contains c)

def takeChars (p : Char → Bool) (ss : List Spot) : List Char := (ss.takeWhile fun s => p s.char).map (·.char)

def dropChars (p : Char → Bool) (ss : List Spot) : List Spot := ss.dropWhile fun s => p s.char

/-- The name of an anchor. It ends at a gap or at a mark that may follow a name. -/
def scanName (ss : List Spot) : Option (String × List Spot) :=
  let name := takeChars isWordChar ss
  let rest := dropChars isWordChar ss
  if name.isEmpty then none
  else if atGap rest || (rest.head?.any fun s => "?:,]\x7d%@`".toList.contains s.char) then
    some (String.ofList name, rest)
  else none

/-- An octet written as a percent sign and two hexadecimal digits. -/
def scanOctet : List Spot → Option (UInt8 × List Spot)
  | ⟨'%', _, _, _⟩ :: high :: low :: rest => do
    return (UInt8.ofNat ((← Json.Token.hexValue? high.char) * 16 + (← Json.Token.hexValue? low.char)), rest)
  | _ => none

def scanContinuations : Nat → List Spot → Option (List UInt8 × List Spot)
  | 0, ss => some ([], ss)
  | n + 1, ss => do
    let (octet, rest) ← scanOctet ss
    if 0x80 ≤ octet && octet < 0xC0 then
      let (more, after) ← scanContinuations n rest
      return (octet :: more, after)
    else none

/-- How many octets follow one that starts a character in UTF-8. -/
def continuations? (octet : UInt8) : Option Nat :=
  if octet < 0x80 then some 0
  else if 0xC0 ≤ octet && octet < 0xE0 then some 1
  else if 0xE0 ≤ octet && octet < 0xF0 then some 2
  else if 0xF0 ≤ octet && octet < 0xF8 then some 3
  else none

/-- The escaped octets of one character. Only their pattern is looked at, not whether there is such a character. -/
def scanEscapedChar (ss : List Spot) : Option (List UInt8 × List Spot) := do
  let (octet, rest) ← scanOctet ss
  let (more, after) ← scanContinuations (← continuations? octet) rest
  return (octet :: more, after)

def scanUri (whole : Bool) (ss : List Spot) : Option (List UInt8 × List Spot) :=
  match ss with
  | [] => some ([], [])
  | s :: rest =>
    if s.char = '%' then
      match scanEscapedChar (s :: rest) with
      | none => none
      | some (octets, more) =>
        if more.length ≤ rest.length then (scanUri whole more).map fun (uri, after) => (octets ++ uri, after) else none
    else if isUriChar whole s.char then
      (scanUri whole rest).map fun (uri, after) => (UInt8.ofNat s.char.toNat :: uri, after)
    else some ([], s :: rest)
termination_by ss.length

/-- An exclamation mark, a word and, if there is one, another exclamation mark. -/
def scanHandle : List Spot → Option (List Char × List Spot)
  | ⟨'!', _, _, _⟩ :: rest =>
    let word := '!' :: takeChars isWordChar rest
    match dropChars isWordChar rest with
    | ⟨'!', _, _, _⟩ :: more => some (word ++ ['!'], more)
    | more => some (word, more)
  | _ => none

def isNamedHandle (handle : List Char) : Bool := 1 < handle.length && handle.getLast? == some '!'

/-- A tag from its first exclamation mark. A lone one is a whole tag. -/
def scanTagText (ss : List Spot) : Option (Tag × List Spot) := do
  if startsWith ['!', '<'] ss then
    let (uri, rest) ← scanUri true (ss.drop 2)
    match uri, rest with
    | _ :: _, ⟨'>', _, _, _⟩ :: more => return (⟨"", .ofOctets uri⟩, more)
    | _, _ => none
  else
    let (handle, afterHandle) ← scanHandle ss
    let (uri, rest) ← scanUri false afterHandle
    if isNamedHandle handle then
      if uri.isEmpty then none else return (⟨String.ofList handle, .ofOctets uri⟩, rest)
    else
      let suffix := TagName.ofOctets ((String.ofList (handle.drop 1)).toUTF8.toList ++ uri)
      if suffix.octets.isEmpty then return (⟨"", .ofText "!"⟩, rest) else return (⟨"!", suffix⟩, rest)

def scanTag (inFlow : Bool) (ss : List Spot) : Option (Tag × List Spot) := do
  let (tag, rest) ← scanTagText ss
  if atGap rest || (inFlow && rest.head?.any (·.char == ',')) then some (tag, rest) else none

/-- A line in front of a document. -/
inductive Directive where
  | version (major minor : Nat)
  | tag (handle : String) (start : TagName)

/-- At most nine digits. -/
def scanVersionNumber (ss : List Spot) : Option (Nat × List Spot) :=
  let digits := takeChars Char.isDigit ss
  if digits.isEmpty || 9 < digits.length then none
  else some (digits.foldl (fun n c => n * 10 + (c.toNat - 48)) 0, dropChars Char.isDigit ss)

def scanVersion (ss : List Spot) : Option (Directive × List Spot) := do
  let (major, afterMajor) ← scanVersionNumber (dropChars isBlank ss)
  match afterMajor with
  | ⟨'.', _, _, _⟩ :: rest =>
    let (minor, rest) ← scanVersionNumber rest
    return (.version major minor, rest)
  | _ => none

def scanTagDefinition (ss : List Spot) : Option (Directive × List Spot) := do
  let (handle, rest) ← scanHandle (dropChars isBlank ss)
  if (handle == ['!'] || isNamedHandle handle) && rest.head?.any (isBlank ·.char) then
    let (uri, rest) ← scanUri true (dropChars isBlank rest)
    if !uri.isEmpty && atGap rest then return (.tag (String.ofList handle) (.ofOctets uri), rest) else none
  else none

/-- A directive after its percent sign, with the rest of the line. -/
def scanDirective (ss : List Spot) : Option (Directive × List Spot) := do
  let rest := dropChars isWordChar ss
  if !atGap rest then none
  let (directive, rest) ←
    match String.ofList (takeChars isWordChar ss) with
    | "YAML" => scanVersion rest
    | "TAG" => scanTagDefinition rest
    | _ => none
  return (directive, ← scanLineEnd rest)

end ComputedFields.Yaml
