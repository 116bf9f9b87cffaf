import ComputedFields.Json.Basic
import ComputedFields.Pipeline.Basic

namespace ComputedFields

/-- A text that starts with a dollar sign would be read as a path, so it is wrapped. -/
def Literal.emit : Literal → Json
  | .number n => .num n
  | .text s => if s.toList.head? = some '$' then .obj [("$literal", .str s)] else .str s

namespace Expr

/-- The single argument of a unary operator stands alone, all others in a list. -/
def emitArgs (op : Operator) (args : List Json) : Json :=
  match op.arity, args with
  | .unary, [arg] => arg
  | _, _ => .arr args

mutual

def emit : Expr → Json
  | .field path => .str ("$" ++ path)
  | .literal l => l.emit
  | .toDate e => .obj [("$toDate", e.emit)]
  | .toText e => .obj [("$toString", e.emit)]
  | .apply op args => .obj [(op.id, emitArgs op (emitAll args))]

def emitAll : List Expr → List Json
  | [] => []
  | e :: rest => e.emit :: emitAll rest

end

end Expr

def Lookup.emit (lookup : Lookup) : Json :=
  .obj ([("fromModel", .str lookup.fromModel), ("localField", .str lookup.localField),
    ("foreignModel", .str lookup.foreignModel), ("as", .str lookup.name), ("isMultiple", .bool lookup.isMultiple)] ++
    match lookup.parent with
    | some parent => [("parentAs", .str parent)]
    | none => [])

/-- The results as members of one object: a name bound twice keeps its first place and takes its last expression. -/
def emitBindings (bindings : List Binding) : List (String × Json) :=
  bindings.foldl (fun members binding => Json.put binding.name binding.expr.emit members) []

def Pipeline.emit (pipeline : Pipeline) : Json :=
  .obj [("lookups", .arr (pipeline.lookups.map Lookup.emit)), ("addFields", .obj (emitBindings pipeline.bindings))]

def Outcome.emit (outcome : Outcome) : Json :=
  .obj [("isValid", .bool outcome.isValid), ("final", (outcome.final.map Json.str).getD .null),
    ("pipeline", (outcome.pipeline.map Pipeline.emit).getD .null)]

end ComputedFields
