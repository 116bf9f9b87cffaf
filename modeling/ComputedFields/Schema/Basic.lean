import ComputedFields.Schema.FieldType

namespace ComputedFields

/-- A field of a model. The `relation` names the model that a field of type relation points to. -/
structure Field where
  name : String
  type : FieldType := .string
  relation : Option String := none
  multiple : Bool := false
  label : Option String := none
  deriving DecidableEq

structure Model where
  name : String
  label : Option String := none
  fields : List Field := []
  deriving DecidableEq

/-- The models that calculations may refer to. Names need not be unique: the first one counts. -/
structure Schema where
  models : List Model
  deriving DecidableEq

def Field.displayName (field : Field) : String := field.label.getD field.name

/-- The model that a relation leads to, unless its name is missing or empty. -/
def Field.target? (field : Field) : Option String :=
  if field.type.isRelation then field.relation.filter (!·.isEmpty) else none

def Model.displayName (model : Model) : String := model.label.getD model.name

def Model.field? (model : Model) (name : String) : Option Field :=
  model.fields.find? (·.name == name)

def Schema.model? (schema : Schema) (name : String) : Option Model :=
  schema.models.find? (·.name == name)

end ComputedFields
