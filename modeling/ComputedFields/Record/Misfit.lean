import ComputedFields.Json.Printer
import ComputedFields.Text.Quoted
import ComputedFields.Text.Segments

namespace ComputedFields

/-- What kind of value stands where another kind was expected. -/
inductive Kind where
  | null
  | bool (b : Bool)
  | num (n : Number)
  | str (s : String)
  | arr
  | obj

def Kind.describe : Kind → String
  | .null => "null"
  | .bool b => s!"boolean `{b}`"
  | .num (.int n _) => s!"integer `{n}`"
  | .num (.float x _) => "floating point `" ++ x.text ++ "`"
  | .str s => "string " ++ Text.quoted s
  | .arr => "sequence"
  | .obj => "map"

/-- Why a well-formed value is not the record it is read as. -/
inductive Misfit where
  | missingField (name : String)
  | duplicateField (name : String)
  | unknownVariant (name : String) (known : List String)
  | wrongKind (found : Kind) (expected : String)
  | wrongValue (found : Kind) (expected : String)
  | wrongLength (length : Nat) (expected : String)
  | badStepId (value : Json)

def Misfit.message : Misfit → String
  | .missingField name => s!"missing field `{name}`"
  | .duplicateField name => s!"duplicate field `{name}`"
  | .unknownVariant name known =>
    s!"unknown variant `{name}`, expected one of " ++ Text.join ", " (known.map fun k => s!"`{k}`")
  | .wrongKind found expected => "invalid type: " ++ found.describe ++ ", expected " ++ expected
  | .wrongValue found expected => "invalid value: " ++ found.describe ++ ", expected " ++ expected
  | .wrongLength length expected => s!"invalid length {length}, expected {expected}"
  | .badStepId value => "step id must be a string or number, got " ++ value.render

end ComputedFields
