import ComputedFields.Compile.Error
import ComputedFields.Json.Printer
import ComputedFields.Pipeline.Basic
import ComputedFields.Step.Basic

namespace ComputedFields

/-- Where field paths are looked up: in a schema, from the model `root`. -/
structure Scope where
  schema : Schema
  root : String

/-- The decimal text of a number. A whole float below `2 ^ 53` is written without a fraction. -/
def Number.plainText (n : Number) : String :=
  match canonical? n.toDouble with
  | some (.int whole _) => toString whole
  | _ => n.text

def constantText : Json → String
  | .str s => s
  | value => value.render

def compileText : Json → Except OperandError Expr
  | .null => .error .missingConstant
  | .str s => .ok (.literal (.text s))
  | .num n => .ok (.literal (.text n.plainText))
  | .bool b => .ok (.literal (.text (if b then "true" else "false")))
  | value => .error (.unsupportedConstant value.render)

/-- A number counts milliseconds, so it is taken as it is. -/
def compileDate : Json → Except OperandError Expr
  | .str s => if Text.allBlank s then .error .missingConstant else .ok (.toDate (.literal (.text s)))
  | .num n => .ok (.toDate (.literal (.number n)))
  | .null => .error .missingConstant
  | value => .error (.unsupportedConstant value.render)

def double? : Json → Option Binary64
  | .num n => some n.toDouble
  | .str s => (Decimal.ofText? (Text.trimChars s.toList)).map Decimal.toBinary64
  | _ => none

def compileNumber : Json → Except OperandError Expr
  | .null => .error .missingConstant
  | value =>
    match (double? value).bind Number.canonical? with
    | some n => .ok (.literal (.number n))
    | none => .error (.notANumber (constantText value))

def compileConstant (op : Operator) (value : Json) : Except OperandError Expr :=
  match op.family with
  | .concat => compileText value
  | .date => compileDate value
  | .numeric => compileNumber value

/-- The type of an earlier result is not known. The operator that reads it decides what to make of it. -/
def compilePrevious (op : Operator) (prior : List String) (operand : Operand) : Except OperandError Expr :=
  let name := operand.text?.getD ""
  if prior.contains name then
    match op.family with
    | .concat => .ok (.toText (.field name))
    | .date => .ok (.toDate (.field name))
    | .numeric => .ok (.field name)
  else .error (.unknownPreviousStep name)

/-- Dates are always converted, texts for every operator that does not concatenate. -/
def coerceField (op : Operator) (type : FieldType) (reference : Expr) : Expr :=
  match type with
  | .date | .datetime => .toDate reference
  | .string => if op.family = .concat then reference else .toDate reference
  | _ => reference

/-- The name of a field in the record at hand, with the lookup it comes through. -/
def fieldReference (through : Option String) (leaf : String) : String :=
  match through with
  | some name => name ++ "." ++ leaf
  | none => leaf

def compileField (scope : Scope) (op : Operator) (table : Lookup.Table) (operand : Operand) :
    Except StepError Expr × Lookup.Table :=
  match scope.schema.resolve scope.root (operand.text?.getD "") with
  | .error e => (.error (.path e), table)
  | .ok path =>
    match table.registerChain path.chain with
    | (.error collision, grown) => (.error (.collision collision.name), grown)
    | (.ok through, grown) =>
      (.ok (coerceField op path.leaf.type (.field (fieldReference through path.leaf.name))), grown)

/-- The expression of one operand, and the table with the lookups it needs. The table may have grown even if the
operand fails. -/
def Operand.compile (scope : Scope) (op : Operator) (prior : List String) (table : Lookup.Table) (operand : Operand) :
    Except StepError Expr × Lookup.Table :=
  match operand.kind with
  | .constant => ((compileConstant op operand.value).mapError .operand, table)
  | .previousStep => ((compilePrevious op prior operand).mapError .operand, table)
  | .field => compileField scope op table operand

end ComputedFields
