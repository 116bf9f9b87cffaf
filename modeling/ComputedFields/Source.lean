import ComputedFields.Schema.Records
import ComputedFields.Step.Records
import ComputedFields.Yaml.Records

namespace ComputedFields

/-- The schema that a YAML text describes. -/
def Schema.ofYaml (text : String) : Option Schema := Yaml.readText Schema.read text

/-- The steps that a YAML text describes. -/
def Step.ofYaml (text : String) : Option (List Step) := Yaml.readText Step.readAll text

/-- What a path leads to. -/
inductive Source where
  | missing
  | folder
  | file (bytes : ByteArray)

/-- Why nothing could be read from a file. -/
inductive AccessError where
  | notFound
  | isFolder
  | notText

inductive LoadError where
  | access (path : String) (cause : AccessError)
  | yaml

def AccessError.message : AccessError → String
  | .notFound => "No such file or directory (os error 2)"
  | .isFolder => "Is a directory (os error 21)"
  | .notText => "stream did not contain valid UTF-8"

namespace Source

def text : Source → Except AccessError String
  | .missing => .error .notFound
  | .folder => .error .isFolder
  | .file bytes =>
    match String.fromUTF8? bytes with
    | some text => .ok text
    | none => .error .notText

/-- Reads what a path leads to. -/
def load {α : Type} (read : String → Option α) (path : String) (source : Source) : Except LoadError α := do
  let text ← source.text.mapError (.access path)
  match read text with
  | some a => .ok a
  | none => .error .yaml

end Source

def LoadError.message? : LoadError → Option String
  | .access path cause => some s!"Failed to read '{path}': {cause.message}"
  | .yaml => none

end ComputedFields
