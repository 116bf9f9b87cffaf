import ComputedFields.Number.Basic

namespace ComputedFields

/-- A JSON value. The members of an object keep the order in which they were first written. -/
inductive Json where
  | null
  | bool (b : Bool)
  | num (n : Number)
  | str (s : String)
  | arr (items : List Json)
  | obj (members : List (String × Json))

namespace Json

/-- Sets a key: a new one goes to the end, a known one keeps its place and takes the new value. -/
def put {α : Type} (key : String) (value : α) : List (String × α) → List (String × α)
  | [] => [(key, value)]
  | (k, v) :: rest => if k = key then (key, value) :: rest else (k, v) :: put key value rest

def get? (key : String) : Json → Option Json
  | .obj members => members.lookup key
  | _ => none

end Json

end ComputedFields
