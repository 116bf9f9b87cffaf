import ComputedFields.Compile.Operand

namespace ComputedFields

def isNameChar (c : Char) : Bool := c.isAlphanum || c == '_'

/-- A result's name has letters, digits and underscores, and must not look like a lookup. -/
def checkName (name : String) : Except ShapeError Unit :=
  if name.isEmpty then .error .emptyName
  else if !name.toList.all isNameChar then .error (.invalidName name)
  else if Lookup.reserved.toList.isPrefixOf name.toList then .error (.reservedName name)
  else .ok ()

def readOperator (text : String) : Except ShapeError Operator :=
  if Text.allBlank text then .error .missingOperator
  else (Operator.ofText text).mapError fun e => .unknownOperator e.input

def compileShape (step : Step) : Except ShapeError Operator :=
  match checkName step.output with
  | .error e => .error e
  | .ok () => readOperator step.operator

def compileArgs (scope : Scope) (op : Operator) (prior : List String) (table : Lookup.Table) (step : Step) :
    Except StepError (List Expr) × Lookup.Table :=
  match step.operand1.compile scope op prior table with
  | (.error e, grown) => (.error e, grown)
  | (.ok first, grown) =>
    match op.arity with
    | .unary => (.ok [first], grown)
    | .binary =>
      match step.operand2 with
      | none => (.error (.operand .missingOperand), grown)
      | some operand =>
        match operand.compile scope op prior grown with
        | (.error e, final) => (.error e, final)
        | (.ok second, final) => (.ok [first, second], final)

/-- The result of one step after the results `prior`. -/
def Step.compile (scope : Scope) (prior : List String) (table : Lookup.Table) (step : Step) :
    Except StepError Binding × Lookup.Table :=
  match compileShape step with
  | .error e => (.error (.shape e), table)
  | .ok op =>
    match compileArgs scope op prior table step with
    | (.error e, grown) => (.error e, grown)
    | (.ok args, grown) => (.ok ⟨step.output, .apply op args⟩, grown)

/-- What became of one step. -/
structure Diagnosis where
  index : Nat
  id : String
  error : Option CompileError

namespace Scope

/-- Compiles steps one after the other, the first of them at `index` and after the results `prior`. -/
def compileFrom (scope : Scope) (index : Nat) (prior : List String) (table : Lookup.Table) :
    List Step → Except CompileError (List Binding × Lookup.Table)
  | [] => .ok ([], table)
  | step :: rest =>
    match step.compile scope prior table with
    | (.error e, _) => .error (.step index e)
    | (.ok binding, grown) =>
      match scope.compileFrom (index + 1) (binding.name :: prior) grown rest with
      | .error e => .error e
      | .ok (bindings, final) => .ok (binding :: bindings, final)

/-- The pipeline of all steps, or the first error. -/
def tryCompile (scope : Scope) (steps : List Step) : Except CompileError Outcome :=
  if Step.isTrivial steps then .ok .nothing
  else
    match scope.compileFrom 0 [] .empty steps with
    | .error e => .error e
    | .ok (bindings, table) =>
      match bindings.getLast? with
      | none => .ok .nothing
      | some last =>
        let pipeline : Pipeline := ⟨table.lookups, bindings⟩
        if pipeline.contains last.name then .ok (.compiled last.name pipeline)
        else .error (.inconsistent last.name)

def compile (scope : Scope) (steps : List Step) : Outcome :=
  match scope.tryCompile steps with
  | .ok outcome => outcome
  | .error _ => .invalid

/-- Goes on past a step that fails, as if its result were there. -/
def diagnoseFrom (scope : Scope) (index : Nat) (prior : List String) (table : Lookup.Table) :
    List Step → List Diagnosis
  | [] => []
  | step :: rest =>
    let (result, grown) := step.compile scope prior table
    let error :=
      match result with
      | .ok _ => none
      | .error e => some (.step index e)
    let known := if step.output.isEmpty then prior else step.output :: prior
    ⟨index, step.id, error⟩ :: scope.diagnoseFrom (index + 1) known grown rest

/-- The error of every step, each for itself. -/
def diagnose (scope : Scope) (steps : List Step) : List Diagnosis :=
  if Step.isTrivial steps then steps.mapIdx fun index step => ⟨index, step.id, none⟩
  else scope.diagnoseFrom 0 [] .empty steps

end Scope

end ComputedFields
