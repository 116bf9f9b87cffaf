import ComputedFields.Json.Basic
import ComputedFields.Text.Blank

namespace ComputedFields

inductive OperandKind where
  | field
  | constant
  | previousStep
  deriving DecidableEq

/-- An operand as it was entered: any value at all, read according to the kind. -/
structure Operand where
  kind : OperandKind
  value : Json

/-- A calculation as it was entered. It may be incomplete, so the operator is only a text. -/
structure Step where
  id : String := ""
  output : String := ""
  operand1 : Operand
  operator : String := ""
  operand2 : Option Operand := none

namespace OperandKind

def all : List OperandKind := [.field, .constant, .previousStep]

def name : OperandKind → String
  | .field => "FIELD"
  | .constant => "CONSTANT"
  | .previousStep => "PREVIOUS_STEP"

end OperandKind

namespace Operand

def field (path : String) : Operand := ⟨.field, .str path⟩

def constant (value : Json) : Operand := ⟨.constant, value⟩

def previousStep (name : String) : Operand := ⟨.previousStep, .str name⟩

def text? (operand : Operand) : Option String :=
  match operand.value with
  | .str s => some s
  | _ => none

/-- Something has been entered. A zero counts as nothing, since it is what an untouched constant holds. -/
def isPopulated (operand : Operand) : Bool :=
  match operand.kind with
  | .field | .previousStep =>
    match operand.text? with
    | some s => !Text.allBlank s
    | none => false
  | .constant =>
    match operand.value with
    | .null => false
    | .str s => !s.isEmpty
    | .num n => !n.toDouble.isZero
    | _ => true

end Operand

namespace Step

/-- The step that a new row starts from. -/
def initial : Step where
  operand1 := .field ""
  operator := "$add"
  operand2 := some (.constant (.num .zero))

def isBlank (step : Step) : Bool :=
  !step.operand1.isPopulated &&
    match step.operand2 with
    | some operand => !operand.isPopulated
    | none => true

/-- No steps, or a single one that nobody has filled in. -/
def isTrivial : List Step → Bool
  | [] => true
  | [step] => step.isBlank
  | _ => false

end Step

end ComputedFields
