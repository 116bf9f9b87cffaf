import ComputedFields.Number.Basic
import ComputedFields.Operator

namespace ComputedFields

inductive Literal where
  | number (n : Number)
  | text (s : String)
  deriving DecidableEq

/-- The expressions of a pipeline. A `field` is a path into the record at hand, lookups and earlier results included. -/
inductive Expr where
  | field (path : String)
  | literal (l : Literal)
  | toDate (e : Expr)
  | toText (e : Expr)
  | apply (op : Operator) (args : List Expr)

def Literal.same : Literal → Literal → Bool
  | .number m, .number n => m.same n
  | .text s, .text t => s = t
  | _, _ => false

namespace Expr

mutual

/-- The paths an expression reads, from left to right. -/
def fieldRefs : Expr → List String
  | .field path => [path]
  | .literal _ => []
  | .toDate e => e.fieldRefs
  | .toText e => e.fieldRefs
  | .apply _ args => fieldRefsOfAll args

def fieldRefsOfAll : List Expr → List String
  | [] => []
  | e :: rest => e.fieldRefs ++ fieldRefsOfAll rest

end

mutual

/-- Equality of expressions, with numbers compared by value. -/
def same : Expr → Expr → Bool
  | .field p, .field q => p = q
  | .literal l, .literal m => l.same m
  | .toDate d, .toDate e => d.same e
  | .toText d, .toText e => d.same e
  | .apply f args, .apply g brgs => f = g && sameAll args brgs
  | _, _ => false

def sameAll : List Expr → List Expr → Bool
  | [], [] => true
  | d :: rest, e :: more => d.same e && sameAll rest more
  | _, _ => false

end

end Expr

end ComputedFields
