import ComputedFields.Json.Records
import ComputedFields.Step.Basic

namespace ComputedFields

structure Operand.Parts where
  kind : Option OperandKind := none
  value : Option Json := none

structure Step.Parts where
  id : Option String := none
  output : Option String := none
  operand1 : Option Operand := none
  operator : Option String := none
  operand2 : Option (Option Operand) := none

/-- The text of a step's id, which may be written as a number or left open. -/
def Step.idText? : Json → Option String
  | .null => some ""
  | .str s => some s
  | .num n => some n.text
  | _ => none

section Reading

variable {m : Type → Type} [Monad m] {ν : Type}

def OperandKind.read (F : Format m ν) (node : ν) : m OperandKind := do
  let name ← F.choice (all.map OperandKind.name) node
  match all.find? (·.name == name) with
  | some kind => return kind
  | none => F.misfit (.unknownVariant name (all.map OperandKind.name))

def Operand.slots (F : Format m ν) : List (Slot m ν Operand.Parts) :=
  [⟨"type", true, (·.kind.isSome), fun n parts => do return { parts with kind := some (← OperandKind.read F n) }⟩,
    ⟨"value", false, (·.value.isSome), fun n parts => do return { parts with value := some (← F.value n) }⟩]

def Operand.read (F : Format m ν) (node : ν) : m Operand := do
  let parts ← F.gather "Operand" (slots F) {} node
  let kind ← F.need "type" parts.kind
  return ⟨kind, parts.value.getD .null⟩

def Step.readId (F : Format m ν) (node : ν) : m String := do
  let value ← F.value node
  match idText? value with
  | some id => return id
  | none => F.misfit (.badStepId value)

def Step.slots (F : Format m ν) : List (Slot m ν Step.Parts) :=
  [⟨"id", false, (·.id.isSome), fun n parts => do return { parts with id := some (← Step.readId F n) }⟩,
    ⟨"outputAlias", false, (·.output.isSome), fun n parts => do return { parts with output := some (← F.text n) }⟩,
    ⟨"operand1", true, (·.operand1.isSome),
      fun n parts => do return { parts with operand1 := some (← Operand.read F n) }⟩,
    ⟨"operator", false, (·.operator.isSome), fun n parts => do return { parts with operator := some (← F.text n) }⟩,
    ⟨"operand2", false, (·.operand2.isSome),
      fun n parts => do return { parts with operand2 := some (← F.optional (Operand.read F) n) }⟩]

def Step.read (F : Format m ν) (node : ν) : m Step := do
  let parts ← F.gather "CalculationStep" (slots F) {} node
  let operand1 ← F.need "operand1" parts.operand1
  return ⟨parts.id.getD "", parts.output.getD "", operand1, parts.operator.getD "", parts.operand2.getD none⟩

def Step.readAll (F : Format m ν) (node : ν) : m (List Step) := F.list (Step.read F) node

end Reading

def Operand.toJson (operand : Operand) : Json :=
  .obj [("type", .str operand.kind.name), ("value", operand.value)]

def Step.toJson (step : Step) : Json :=
  .obj ([("id", .str step.id), ("outputAlias", .str step.output), ("operand1", step.operand1.toJson),
    ("operator", .str step.operator)] ++
    match step.operand2 with
    | some operand => [("operand2", operand.toJson)]
    | none => [])

/-- The steps that a JSON value describes. -/
def Step.ofJson (value : Json) : Except Misfit (List Step) := Step.readAll Json.format value

/-- The steps that a JSON text describes. -/
def Step.ofText (text : String) : Except Json.ReadError (List Step) :=
  Json.readText (Step.readAll Json.Draft.format) text

end ComputedFields
