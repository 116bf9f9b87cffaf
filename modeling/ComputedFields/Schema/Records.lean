import ComputedFields.Json.Records
import ComputedFields.Schema.Basic

namespace ComputedFields

/-- The fields of a `Field` that have been read. -/
structure Field.Parts where
  name : Option String := none
  type : Option FieldType := none
  relation : Option (Option String) := none
  multiple : Option Bool := none
  label : Option (Option String) := none

structure Model.Parts where
  name : Option String := none
  label : Option (Option String) := none
  fields : Option (List Field) := none

structure Schema.Parts where
  models : Option (List Model) := none

section Reading

variable {m : Type → Type} [Monad m] {ν : Type}

def Field.slots (F : Format m ν) : List (Slot m ν Field.Parts) :=
  [⟨"name", true, (·.name.isSome), fun n parts => do return { parts with name := some (← F.text n) }⟩,
    ⟨"type", true, (·.type.isSome), fun n parts => do return { parts with type := some (.ofText (← F.text n)) }⟩,
    ⟨"relation", false, (·.relation.isSome),
      fun n parts => do return { parts with relation := some (← F.optional F.text n) }⟩,
    ⟨"multiple", false, (·.multiple.isSome), fun n parts => do return { parts with multiple := some (← F.flag n) }⟩,
    ⟨"label", false, (·.label.isSome),
      fun n parts => do return { parts with label := some (← F.optional F.text n) }⟩]

def Field.read (F : Format m ν) (node : ν) : m Field := do
  let parts ← F.gather "Field" (slots F) {} node
  let name ← F.need "name" parts.name
  let type ← F.need "type" parts.type
  return ⟨name, type, parts.relation.getD none, parts.multiple.getD false, parts.label.getD none⟩

def Model.slots (F : Format m ν) : List (Slot m ν Model.Parts) :=
  [⟨"name", true, (·.name.isSome), fun n parts => do return { parts with name := some (← F.text n) }⟩,
    ⟨"label", false, (·.label.isSome),
      fun n parts => do return { parts with label := some (← F.optional F.text n) }⟩,
    ⟨"fields", false, (·.fields.isSome),
      fun n parts => do return { parts with fields := some (← F.list (Field.read F) n) }⟩]

def Model.read (F : Format m ν) (node : ν) : m Model := do
  let parts ← F.gather "Model" (slots F) {} node
  let name ← F.need "name" parts.name
  return ⟨name, parts.label.getD none, parts.fields.getD []⟩

def Schema.slots (F : Format m ν) : List (Slot m ν Schema.Parts) :=
  [⟨"models", true, (·.models.isSome),
    fun n parts => do return { parts with models := some (← F.list (Model.read F) n) }⟩]

def Schema.read (F : Format m ν) (node : ν) : m Schema := do
  let parts ← F.gather "Schema" (slots F) {} node
  let models ← F.need "models" parts.models
  return ⟨models⟩

end Reading

/-- A member that is left out if there is nothing to say. -/
def optionalMember (key : String) : Option String → List (String × Json)
  | some s => [(key, .str s)]
  | none => []

def Field.toJson (field : Field) : Json :=
  .obj ([("name", .str field.name), ("type", .str field.type.text)] ++ optionalMember "relation" field.relation ++
    [("multiple", .bool field.multiple)] ++ optionalMember "label" field.label)

def Model.toJson (model : Model) : Json :=
  .obj ([("name", .str model.name)] ++ optionalMember "label" model.label ++
    [("fields", .arr (model.fields.map Field.toJson))])

def Schema.toJson (schema : Schema) : Json :=
  .obj [("models", .arr (schema.models.map Model.toJson))]

/-- The schema that a JSON value describes. -/
def Schema.ofJson (value : Json) : Except Misfit Schema := Schema.read Json.format value

end ComputedFields
