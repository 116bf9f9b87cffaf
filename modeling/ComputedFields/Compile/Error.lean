import ComputedFields.Schema.Path

namespace ComputedFields

inductive OperandError where
  | missingOperand
  | missingConstant
  | notANumber (text : String)
  | unsupportedConstant (text : String)
  | unknownPreviousStep (name : String)
  deriving DecidableEq

inductive ShapeError where
  | emptyName
  | invalidName (name : String)
  | reservedName (name : String)
  | missingOperator
  | unknownOperator (input : String)
  deriving DecidableEq

/-- Why a step does not compile. -/
inductive StepError where
  | path (error : ResolveError)
  | operand (error : OperandError)
  | shape (error : ShapeError)
  | collision (name : String)
  deriving DecidableEq

inductive CompileError where
  | step (index : Nat) (error : StepError)
  | inconsistent (name : String)
  deriving DecidableEq

def OperandError.message : OperandError → String
  | .missingOperand => "Operator needs a second operand"
  | .missingConstant => "Constant value is missing"
  | .notANumber text => s!"'{text}' is not a number"
  | .unsupportedConstant text => s!"Constant {text} cannot be used with this operator"
  | .unknownPreviousStep name => s!"No earlier step produces '{name}'"

def ShapeError.message : ShapeError → String
  | .emptyName => "Output name is empty"
  | .invalidName name => s!"Output name '{name}' may only contain letters, digits and underscores"
  | .reservedName name => s!"Output name '{name}' uses a reserved prefix"
  | .missingOperator => "No operator selected"
  | .unknownOperator input => s!"Unknown operator '{input}'"

def StepError.message : StepError → String
  | .path error => error.message
  | .operand error => error.message
  | .shape error => error.message
  | .collision name => s!"relation path maps to lookup '{name}' already used by a different path"

/-- Steps are counted from one in messages. -/
def CompileError.message : CompileError → String
  | .step index error => s!"Step {index + 1}: " ++ error.message
  | .inconsistent name => s!"Final output '{name}' missing from assembled pipeline"

def CompileError.step? : CompileError → Option Nat
  | .step index _ => some index
  | .inconsistent _ => none

end ComputedFields
