import ComputedFields.Text.Blank
import ComputedFields.Text.Lower

namespace ComputedFields

inductive FieldType where
  | string
  | number
  | date
  | datetime
  | boolean
  | relation
  | other (name : String)
  deriving DecidableEq

namespace FieldType

/-- Reads a type, whatever its case and the blanks around it. A type nobody knows keeps its name in lower case. -/
def ofText (s : String) : FieldType :=
  let name := Text.lower (Text.trim s)
  if name = "string" then .string
  else if name = "number" then .number
  else if name = "date" then .date
  else if name = "datetime" then .datetime
  else if name = "boolean" then .boolean
  else if name = "relation" then .relation
  else .other name

def text : FieldType → String
  | .string => "string"
  | .number => "number"
  | .date => "date"
  | .datetime => "datetime"
  | .boolean => "boolean"
  | .relation => "relation"
  | .other name => name

def isTemporal : FieldType → Bool
  | .date | .datetime => true
  | _ => false

def isNumeric : FieldType → Bool
  | .number => true
  | _ => false

def isRelation : FieldType → Bool
  | .relation => true
  | _ => false

end FieldType

end ComputedFields
