import ComputedFields.Text.Blank

namespace ComputedFields

inductive Operator where
  | add | subtract | multiply | divide | mod | pow | concat
  | year | month | week | dayOfMonth | dayOfWeek | dayOfYear | hour | minute | second
  | sqrt | abs | ceil | floor | trunc | exp | ln | log10 | sin | cos | tan | asin | acos | atan
  deriving DecidableEq

inductive Arity where
  | unary
  | binary
  deriving DecidableEq

/-- What an operator works on. This decides how its operands are coerced. -/
inductive Family where
  | numeric
  | concat
  | date
  deriving DecidableEq

namespace Operator

def all : List Operator :=
  [.add, .subtract, .multiply, .divide, .mod, .pow, .concat,
    .year, .month, .week, .dayOfMonth, .dayOfWeek, .dayOfYear, .hour, .minute, .second,
    .sqrt, .abs, .ceil, .floor, .trunc, .exp, .ln, .log10, .sin, .cos, .tan, .asin, .acos, .atan]

def name : Operator → String
  | .add => "add"
  | .subtract => "subtract"
  | .multiply => "multiply"
  | .divide => "divide"
  | .mod => "mod"
  | .pow => "pow"
  | .concat => "concat"
  | .year => "year"
  | .month => "month"
  | .week => "week"
  | .dayOfMonth => "dayOfMonth"
  | .dayOfWeek => "dayOfWeek"
  | .dayOfYear => "dayOfYear"
  | .hour => "hour"
  | .minute => "minute"
  | .second => "second"
  | .sqrt => "sqrt"
  | .abs => "abs"
  | .ceil => "ceil"
  | .floor => "floor"
  | .trunc => "trunc"
  | .exp => "exp"
  | .ln => "ln"
  | .log10 => "log10"
  | .sin => "sin"
  | .cos => "cos"
  | .tan => "tan"
  | .asin => "asin"
  | .acos => "acos"
  | .atan => "atan"

/-- The name under which a pipeline applies the operator. -/
def id (op : Operator) : String := "$" ++ op.name

def arity : Operator → Arity
  | .add | .subtract | .multiply | .divide | .mod | .pow | .concat => .binary
  | _ => .unary

def family : Operator → Family
  | .concat => .concat
  | .year | .month | .week | .dayOfMonth | .dayOfWeek | .dayOfYear | .hour | .minute | .second => .date
  | _ => .numeric

def dropDollar : List Char → List Char
  | '$' :: rest => rest
  | cs => cs

end Operator

/-- No operator has this name. -/
structure UnknownOperator where
  input : String

def UnknownOperator.message (e : UnknownOperator) : String :=
  if e.input.isEmpty then "No operator selected" else s!"Unknown operator '{e.input}'"

/-- Reads an operator with or without its dollar sign. Blanks around it do not count, case does. -/
def Operator.ofText (s : String) : Except UnknownOperator Operator :=
  let wanted := String.ofList (dropDollar (Text.trimChars s.toList))
  match all.find? (·.name == wanted) with
  | some op => .ok op
  | none => .error ⟨s⟩

end ComputedFields
