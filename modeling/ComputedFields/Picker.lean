import ComputedFields.Operator
import ComputedFields.Schema.Basic
import ComputedFields.Text.Segments

namespace ComputedFields

/-- A field that can be chosen as an operand, with the relations that lead to it. -/
structure FieldOption where
  path : String
  label : String
  type : FieldType
  depth : Nat
  deriving DecidableEq

/-- Which types an operator is offered. -/
def FieldOption.accepts (option : FieldOption) (op : Operator) : Bool :=
  match op.family with
  | .date => option.type.isTemporal || option.type = .string
  | .numeric => option.type.isNumeric
  | .concat => !option.type.isRelation

/-- How a model was reached: the names and the labels of the relations, and the models on the way. -/
structure Trail where
  path : List String
  labels : List String
  visited : List String

def Trail.option (trail : Trail) (field : Field) : FieldOption where
  path := Text.join "." (trail.path ++ [field.name])
  label := Text.join " > " (trail.labels ++ [field.displayName])
  type := field.type
  depth := trail.path.length

def Trail.follow (trail : Trail) (field : Field) (target : String) : Trail where
  path := trail.path ++ [field.name]
  labels := trail.labels ++ [field.displayName]
  visited := target :: trail.visited

namespace Schema

/-- The model that a relation opens up, unless the trail has been there. -/
def ahead? (schema : Schema) (trail : Trail) (target : String) : Option Model :=
  if trail.visited.contains target then none else schema.model? target

/-- The fields of a model in order, each relation replaced by the fields behind it, up to `hops` relations deep. -/
def options (schema : Schema) : (hops : Nat) → Trail → Model → List FieldOption
  | 0, trail, model =>
    model.fields.flatMap fun field => if field.type.isRelation then [] else [trail.option field]
  | hops + 1, trail, model =>
    model.fields.flatMap fun field =>
      match field.target? with
      | none => if field.type.isRelation then [] else [trail.option field]
      | some target =>
        match schema.ahead? trail target with
        | none => []
        | some next => schema.options hops (trail.follow field target) next

def defaultHops : Nat := 2

/-- All fields within reach of the model `root`. -/
def availableFields (schema : Schema) (root : String) (hops : Nat) : List FieldOption :=
  match schema.model? root with
  | none => []
  | some model => schema.options hops ⟨[], [], [model.name]⟩ model

def fieldsFor (schema : Schema) (root : String) (op : Operator) (hops : Nat) : List FieldOption :=
  (schema.availableFields root hops).filter (·.accepts op)

end Schema

end ComputedFields
