import ComputedFields.Json.Reader
import ComputedFields.Record.Format

namespace ComputedFields

namespace Json

def kind : Json → Kind
  | .null => .null
  | .bool b => .bool b
  | .num n => .num n
  | .str s => .str s
  | .arr _ => .arr
  | .obj _ => .obj

def checkVariant (known : List String) (name : String) : Except Misfit String :=
  if known.contains name then .ok name else .error (.unknownVariant name known)

def checkUnit : Json → Except Misfit Unit
  | .null => .ok ()
  | value => .error (.wrongKind value.kind "unit")

/-- A variant is written as its name, or as an object with the name for its only key. -/
def readChoice (known : List String) : Json → Except Misfit String
  | .str name => checkVariant known name
  | .obj [(name, value)] => do
    let variant ← checkVariant known name
    checkUnit value
    return variant
  | .obj _ => .error (.wrongValue .obj "map with a single key")
  | value => .error (.wrongKind value.kind "string or map")

/-- Records in JSON values that have been read as a whole. -/
def format : Format (Except Misfit) Json where
  text
    | .str s => .ok s
    | value => .error (.wrongKind value.kind "a string")
  flag
    | .bool b => .ok b
    | value => .error (.wrongKind value.kind "a boolean")
  value := .ok
  choice := readChoice
  optional read value :=
    match value with
    | .null => .ok none
    | value => some <$> read value
  list read value :=
    match value with
    | .arr items => items.mapM read
    | value => .error (.wrongKind value.kind "a sequence")
  layout expected value :=
    match value with
    | .obj members => .ok (.keyed (members.map fun (key, value) => (.ok key, value)) (.ok ()))
    | .arr items => .ok (.placed items (.ok ()) (.error (.wrongLength items.length "fewer elements in array")))
    | value => .error (.wrongKind value.kind expected)
  skip _ := .ok ()
  misfit m := .error m

/-- Why a text could not be read: it is not JSON, or not the record it should be. What comes first in the text
counts. -/
inductive ReadError where
  | fault (f : Fault)
  | misfit (m : Misfit)

def orFault {α : Type} : Except Fault α → Except ReadError α := Except.mapError .fault

def orMisfit {α : Type} : Except Misfit α → Except ReadError α := Except.mapError .misfit

namespace Draft

def wrongKind {α : Type} (d : Draft) (expected : String) : Except ReadError α := do
  let found ← orFault d.kind
  .error (.misfit (.wrongKind found expected))

def readUnit : Draft → Except ReadError Unit
  | .null => .ok ()
  | d => d.wrongKind "unit"

def readVariantKey (known : List String) : Key → Except ReadError String
  | .text name => orMisfit (checkVariant known name)
  | key => orFault key.read

/-- A variant is written as its name, or as an object with the name for its only key. Anything else is not even
well-formed here. -/
def readChoice (known : List String) : Draft → Except ReadError String
  | .str name => orMisfit (checkVariant known name)
  | .obj ((key, value) :: rest) close => do
    let variant ← readVariantKey known key
    readUnit value
    if rest.isEmpty then orFault (Fault.raise close) else .error (.fault .malformed)
    return variant
  | .obj [] close => .error (.fault (close.getD .malformed))
  | .broken read _ => .error (.fault read)
  | _ => .error (.fault .malformed)

/-- Records in a text, read from left to right. -/
def format : Format (Except ReadError) Draft where
  text
    | .str s => .ok s
    | d => d.wrongKind "a string"
  flag
    | .bool b => .ok b
    | d => d.wrongKind "a boolean"
  value d := orFault d.read
  choice := readChoice
  optional read d :=
    match d with
    | .null => .ok none
    | d => some <$> read d
  list read d :=
    match d with
    | .arr items close => do
      let values ← items.mapM read
      orFault (Fault.raise close)
      return values
    | d => d.wrongKind "a sequence"
  layout expected d :=
    match d with
    | .obj members close =>
      .ok (.keyed (members.map fun (key, value) => (orFault key.read, value)) (orFault (Fault.raise close)))
    | .arr items close => .ok (.placed items (orFault (Fault.raise close)) (.error (.fault .malformed)))
    | d => d.wrongKind expected
  skip d := orFault d.skip
  misfit m := .error (.misfit m)

end Draft

/-- Reads a record that makes up a whole text. -/
def readText {α : Type} (read : Draft → Except ReadError α) (text : String) : Except ReadError α := do
  let (draft, trailing) := Draft.ofText text
  let record ← read draft
  orFault (Fault.raise trailing)
  return record

end Json

end ComputedFields
