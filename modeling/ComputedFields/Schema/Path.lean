import ComputedFields.Schema.Basic
import ComputedFields.Text.Segments

namespace ComputedFields

/-- One relation on the way to a field. -/
structure Hop where
  model : Model
  field : Field
  target : Model

/-- A dotted path, followed through the relations of its `chain` to the field it ends at. -/
structure ResolvedPath where
  root : Model
  chain : List Hop
  leaf : Field

inductive ResolveError where
  | emptyPath
  | modelNotFound (model : String)
  | fieldNotFound (model field : String)
  | notARelation (model field : String)
  | missingTarget (model field : String)
  deriving DecidableEq

def ResolveError.message : ResolveError → String
  | .emptyPath => "Field path is empty"
  | .modelNotFound model => s!"Model '{model}' not found"
  | .fieldNotFound model field => s!"Field '{field}' not found on model '{model}'"
  | .notARelation model field => s!"Field '{field}' on model '{model}' is not a relation"
  | .missingTarget model field => s!"Relation '{field}' on model '{model}' has no target model"

def ResolvedPath.isRoot (path : ResolvedPath) : Bool := path.chain.isEmpty

/-- The model that the field at the end belongs to. -/
def ResolvedPath.leafModel (path : ResolvedPath) : Model :=
  (path.chain.getLast?.map (·.target)).getD path.root

def ResolvedPath.segments (path : ResolvedPath) : List String :=
  path.chain.map (·.field.name) ++ [path.leaf.name]

def ResolvedPath.text (path : ResolvedPath) : String := Text.join "." path.segments

namespace Schema

/-- The relation that a segment in front of the last one has to be. -/
def hop (schema : Schema) (model : Model) (segment : String) : Except ResolveError Hop :=
  match model.field? segment with
  | none => .error (.fieldNotFound model.name segment)
  | some field =>
    if field.type.isRelation then
      match field.target? with
      | none => .error (.missingTarget model.name field.name)
      | some name =>
        match schema.model? name with
        | none => .error (.modelNotFound name)
        | some target => .ok ⟨model, field, target⟩
    else .error (.notARelation model.name field.name)

def walk (schema : Schema) (model : Model) : List String → Except ResolveError (List Hop × Field)
  | [] => .error .emptyPath
  | [segment] =>
    match model.field? segment with
    | none => .error (.fieldNotFound model.name segment)
    | some leaf => .ok ([], leaf)
  | segment :: next :: rest =>
    match schema.hop model segment with
    | .error e => .error e
    | .ok hop =>
      match walk schema hop.target (next :: rest) with
      | .error e => .error e
      | .ok (chain, leaf) => .ok (hop :: chain, leaf)

/-- Follows a dotted path from the model `root`. -/
def resolve (schema : Schema) (root path : String) : Except ResolveError ResolvedPath :=
  if Text.allBlank path then .error .emptyPath
  else
    match schema.model? root with
    | none => .error (.modelNotFound root)
    | some model =>
      match schema.walk model (Text.split '.' path) with
      | .error e => .error e
      | .ok (chain, leaf) => .ok ⟨model, chain, leaf⟩

end Schema

end ComputedFields
