import ComputedFields.Schema.Path

namespace ComputedFields

/-- Brings the records of a related model in under `name`. The local field belongs to the root model, or to the lookup
`parent`. -/
structure Lookup where
  fromModel : String
  localField : String
  foreignModel : String
  name : String
  isMultiple : Bool
  parent : Option String
  deriving DecidableEq

namespace Lookup

def localPath (lookup : Lookup) : String :=
  match lookup.parent with
  | some parent => parent ++ "." ++ lookup.localField
  | none => lookup.localField

/-- What the name of every lookup starts with, and no other name may. -/
def reserved : String := "__calc_lookup_"

def nameOf (segments : List String) : String := reserved ++ Text.join "_" segments

/-- A lookup and the relations, from the root model on, for which it was registered. -/
structure Entry where
  segments : List String
  lookup : Lookup
  deriving DecidableEq

def Entry.path (entry : Entry) : String := Text.join "." entry.segments

/-- The lookups that a calculation needs, in the order of their first use. -/
structure Table where
  entries : List Entry
  deriving DecidableEq

/-- Two different paths ask for the same name. -/
structure Collision where
  name : String
  existingPath : String
  path : String
  deriving DecidableEq

namespace Table

def empty : Table := ⟨[]⟩

def lookups (table : Table) : List Lookup := table.entries.map (·.lookup)

def find? (table : Table) (name : String) : Option Entry :=
  table.entries.find? (·.lookup.name == name)

/-- Registers the hop at the end of `segments`, unless the table has it already. -/
def registerHop (table : Table) (segments : List String) (parent : Option String) (hop : Hop) :
    Except Collision Table :=
  match table.find? (nameOf segments) with
  | some entry =>
    if entry.path = Text.join "." segments then .ok table
    else .error ⟨nameOf segments, entry.path, Text.join "." segments⟩
  | none =>
    .ok ⟨table.entries ++
      [⟨segments, hop.model.name, hop.field.name, hop.target.name, nameOf segments, hop.field.multiple, parent⟩]⟩

def registerFrom (table : Table) (before : List String) (parent : Option String) :
    List Hop → Except Collision (Option String) × Table
  | [] => (.ok parent, table)
  | hop :: rest =>
    let segments := before ++ [hop.field.name]
    match table.registerHop segments parent hop with
    | .error collision => (.error collision, table)
    | .ok grown => grown.registerFrom segments (some (nameOf segments)) rest

/-- Registers every hop of a chain and answers the name of the last one. What was registered before a collision
stays. -/
def registerChain (table : Table) (chain : List Hop) : Except Collision (Option String) × Table :=
  table.registerFrom [] none chain

end Table

end Lookup

end ComputedFields
