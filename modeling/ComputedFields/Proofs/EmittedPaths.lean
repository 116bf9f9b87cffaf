import ComputedFields.Proofs.ClosedPipeline
import ComputedFields.Proofs.FaithfulEmission

namespace ComputedFields

namespace Json

mutual

/-- The texts in a value from left to right, each with the key that it stands directly under. Keys are no texts. -/
def texts (key : Option String) : Json → List (Option String × String)
  | .str s => [(key, s)]
  | .arr items => textsOfAll items
  | .obj members => textsOfMembers members
  | _ => []

def textsOfAll : List Json → List (Option String × String)
  | [] => []
  | item :: rest => item.texts none ++ textsOfAll rest

def textsOfMembers : List (String × Json) → List (Option String × String)
  | [] => []
  | (key, value) :: rest => value.texts (some key) ++ textsOfMembers rest

end

/-- A text that starts with a dollar sign is read as a path, unless its key says that it is a literal. -/
def readAsPath (text : Option String × String) : Bool :=
  decide (text.2.toList.head? = some '$') && decide (text.1 ≠ some "$literal")

/-- The texts in a value that are read as paths, from left to right. -/
def paths (value : Json) : List String := ((value.texts none).filter readAsPath).map Prod.snd

theorem textsOfAll_eq_flatMap (items : List Json) : textsOfAll items = items.flatMap (texts none) := by
  induction items with
  | nil => rw [textsOfAll, List.flatMap_nil]
  | cons item rest ih => rw [textsOfAll, List.flatMap_cons, ih]

theorem paths_arr (items : List Json) : paths (.arr items) = items.flatMap paths := by
  rw [paths, texts, textsOfAll_eq_flatMap, List.filter_flatMap, List.map_flatMap]
  rfl

/-- The key matters to a text alone, and then only if it marks a literal. -/
theorem paths_wrapped {key : String} (unmarked : key ≠ "$literal") (value : Json) :
    paths (.obj [(key, value)]) = paths value := by
  have inside : paths (.obj [(key, value)]) = ((value.texts (some key)).filter readAsPath).map Prod.snd := by
    rw [paths, texts, textsOfMembers, textsOfMembers, List.append_nil]
  rw [inside, paths]
  cases value with
  | str s =>
    have asBefore : readAsPath (some key, s) = readAsPath (none, s) := by simp [readAsPath, unmarked]
    simp only [texts, List.filter_cons, asBefore, List.filter_nil]
    split <;> rfl
  | _ => rfl

end Json

/-- No literal is read as a path: a text with a dollar sign in front is emitted under a key that says so. -/
theorem Literal.paths_emit (l : Literal) : l.emit.paths = [] := by
  cases l with
  | number n => rfl
  | text s =>
    by_cases dollar : s.toList.head? = some '$'
    · simp [Literal.emit, dollar, Json.paths, Json.texts, Json.textsOfMembers, Json.readAsPath]
    · simp [Literal.emit, dollar, Json.paths, Json.texts, Json.readAsPath]

namespace Expr

theorem emitAll_eq_map (args : List Expr) : emitAll args = args.map emit := by
  induction args with
  | nil => rw [emitAll, List.map_nil]
  | cons e rest ih => rw [emitAll, List.map_cons, ih]

/-- Whether an argument stands alone or in a list makes no difference to its paths. -/
theorem paths_emitArgs (op : Operator) (values : List Json) :
    (emitArgs op values).paths = values.flatMap Json.paths := by
  unfold emitArgs
  split
  · rw [List.flatMap_singleton]
  · exact Json.paths_arr _

end Expr

/-- What is read as a path in an emitted expression is what the expression refers to, in the same order and as often.
Operators may have any number of arguments. -/
theorem emitted_paths_are_references (e : Expr) : e.emit.paths = e.fieldRefs.map ("$" ++ ·) := by
  cases e with
  | field path => simp [Expr.emit, Expr.fieldRefs, Json.paths, Json.texts, Json.readAsPath]
  | literal l => rw [Expr.emit, Literal.paths_emit, Expr.fieldRefs, List.map_nil]
  | toDate inner => rw [Expr.emit, Json.paths_wrapped (by decide), Expr.fieldRefs, emitted_paths_are_references inner]
  | toText inner => rw [Expr.emit, Json.paths_wrapped (by decide), Expr.fieldRefs, emitted_paths_are_references inner]
  | apply op args =>
    rw [Expr.emit, Json.paths_wrapped op.id_ne_wrapper.1, Expr.paths_emitArgs, Expr.emitAll_eq_map, List.flatMap_map,
      Expr.fieldRefs, Expr.fieldRefsOfAll_eq, List.map_flatMap]
    exact List.flatMap_congr fun arg _ => emitted_paths_are_references arg

-- Of the three texts with a dollar sign only the last is a reference.
example :
    Json.paths (Expr.emit (.apply .abs [.toText (.literal (.text "$total")), .apply .concat [.literal (.text "$"),
      .toDate (.field "total")]])) = ["$total"] := by
  decide

end ComputedFields
