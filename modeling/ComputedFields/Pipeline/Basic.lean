import ComputedFields.Pipeline.Expr
import ComputedFields.Schema.Lookup

namespace ComputedFields

/-- A result under its name. -/
structure Binding where
  name : String
  expr : Expr

/-- First the lookups, then the results one after the other. A later result of the same name replaces the earlier. -/
structure Pipeline where
  lookups : List Lookup
  bindings : List Binding

/-- What a list of steps comes to. There are three states: not valid, valid but without anything to do, and a pipeline
with the name of its last result. -/
structure Outcome where
  isValid : Bool
  final : Option String
  pipeline : Option Pipeline

namespace Pipeline

def empty : Pipeline := ⟨[], []⟩

/-- The expression last bound to a name. -/
def get? (pipeline : Pipeline) (name : String) : Option Expr :=
  (pipeline.bindings.reverse.find? (·.name == name)).map (·.expr)

def contains (pipeline : Pipeline) (name : String) : Bool :=
  pipeline.bindings.any (·.name == name)

def lookup? (pipeline : Pipeline) (name : String) : Option Lookup :=
  pipeline.lookups.find? (·.name == name)

end Pipeline

namespace Outcome

def invalid : Outcome := ⟨false, none, none⟩

def nothing : Outcome := ⟨true, none, none⟩

def compiled (final : String) (pipeline : Pipeline) : Outcome := ⟨true, some final, some pipeline⟩

def isEmpty (outcome : Outcome) : Bool := outcome.isValid && outcome.pipeline.isNone

end Outcome

def Binding.same (a b : Binding) : Bool := a.name = b.name && a.expr.same b.expr

def sameBindings : List Binding → List Binding → Bool
  | [], [] => true
  | a :: rest, b :: more => a.same b && sameBindings rest more
  | _, _ => false

def Pipeline.same (p q : Pipeline) : Bool :=
  p.lookups = q.lookups && sameBindings p.bindings q.bindings

/-- Equality of outcomes, with numbers compared by value. -/
def Outcome.same (a b : Outcome) : Bool :=
  a.isValid = b.isValid && a.final = b.final &&
    match a.pipeline, b.pipeline with
    | some p, some q => p.same q
    | none, none => true
    | _, _ => false

end ComputedFields
