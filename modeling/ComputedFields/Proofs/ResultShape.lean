import ComputedFields.Proofs.FaithfulEmission

namespace ComputedFields

/-- The forms of an argument: a reference or a literal, converted once at most. No operator is applied inside. -/
inductive Expr.IsArgument : Expr → Prop
  | field (path : String) : IsArgument (.field path)
  | literal (l : Literal) : IsArgument (.literal l)
  | fieldAsDate (path : String) : IsArgument (.toDate (.field path))
  | literalAsDate (l : Literal) : IsArgument (.toDate (.literal l))
  | fieldAsText (path : String) : IsArgument (.toText (.field path))

/-- What an operator may take an operand for. Only an earlier result is converted to a text, and only to be
concatenated, which is also the only thing that is done to a text as it stands. -/
structure Operand.TakenAs (op : Operator) (operand : Operand) (e : Expr) : Prop where
  form : e.IsArgument
  converted : ∀ inner, e = .toText inner → op = .concat ∧ operand.kind = .previousStep
  bare : ∀ s, e = .literal (.text s) → op = .concat

theorem Operator.eq_concat_of_family {op : Operator} (family : op.family = .concat) : op = .concat := by
  cases op with
  | concat => rfl
  | _ => cases family

namespace Operand.TakenAs

variable {op : Operator} {operand : Operand} {e : Expr}

theorem of_constant {value : Json} (form : ConstantForm op value e) : TakenAs op operand e := by
  cases form with
  | number => exact ⟨.literal _, nofun, nofun⟩
  | milliseconds => exact ⟨.literalAsDate _, nofun, nofun⟩
  | date => exact ⟨.literalAsDate _, nofun, nofun⟩
  | text family => exact ⟨.literal _, nofun, fun _ _ => Operator.eq_concat_of_family family⟩

theorem of_result (previous : operand.kind = .previousStep) (name : String) :
    TakenAs op operand (resultReference op name) := by
  unfold resultReference
  cases family : op.family with
  | numeric => exact ⟨.field _, nofun, nofun⟩
  | date => exact ⟨.fieldAsDate _, nofun, nofun⟩
  | concat => exact ⟨.fieldAsText _, fun _ _ => ⟨Operator.eq_concat_of_family family, previous⟩, nofun⟩

theorem of_field (type : FieldType) (path : String) : TakenAs op operand (coerceField op type (.field path)) := by
  rcases coerceField_eq_or op type (.field path) with same | same
  · rw [same]
    exact ⟨.field _, nofun, nofun⟩
  · rw [same]
    exact ⟨.fieldAsDate _, nofun, nofun⟩

/-- However an operand is compiled, it is taken in a form that its operator allows. -/
theorem of_expr? {scope : Scope} (compiled : operand.expr? scope op = some e) : TakenAs op operand e := by
  rcases Operand.expr?_eq_some compiled with ⟨_, form⟩ | ⟨previous, rfl⟩ | ⟨_, type, rfl⟩
  · exact of_constant form
  · exact of_result previous _
  · exact of_field type _

end Operand.TakenAs

/-- An operator over as many arguments as it takes, with the value that they are emitted as: two of them make a list,
and one by itself is no list. -/
def Operator.Takes (op : Operator) (args : List Expr) (body : Json) : Prop :=
  match op.arity with
  | .unary => ∃ only, args = [only] ∧ body = only.emit ∧ ∀ items, body ≠ .arr items
  | .binary => ∃ first second, args = [first, second] ∧ body = .arr [first.emit, second.emit]

theorem Operator.takes_emitArgs {op : Operator} {step : Step} {args : List Expr} {R : Operand → Expr → Prop}
    (present : op.arity = .binary → step.operand2.isSome = true)
    (matched : List.Forall₂ R (step.operandsOf op) args) :
    op.Takes args (Expr.emitArgs op (Expr.emitAll args)) := by
  unfold Step.operandsOf at matched
  unfold Operator.Takes Expr.emitArgs
  cases arity : op.arity with
  | unary =>
    simp only [arity] at matched
    obtain ⟨only, _, _, none, rfl⟩ := List.forall₂_cons_left_iff.mp matched
    cases none
    simp only [Expr.emitAll]
    exact ⟨only, rfl, rfl, only.emit_ne_arr⟩
  | binary =>
    obtain ⟨operand, second⟩ := Option.isSome_iff_exists.mp (present arity)
    simp only [arity, second, Option.toList_some] at matched
    obtain ⟨first, _, _, rest, rfl⟩ := List.forall₂_cons_left_iff.mp matched
    obtain ⟨last, _, _, none, rfl⟩ := List.forall₂_cons_left_iff.mp rest
    cases none
    simp only [Expr.emitAll]
    exact ⟨first, last, rfl, rfl⟩

/-- The result of a step is its operator over its operands and nothing else, and is emitted under the name of the
operator: the shape on which the execution of a pipeline can rely. -/
theorem results_apply_operator_to_operands {scope : Scope} {steps : List Step} {outcome : Outcome}
    {pipeline : Pipeline} (run : scope.tryCompile steps = .ok outcome) (produced : outcome.pipeline = some pipeline)
    {index : Nat} {binding : Binding} (atIndex : pipeline.bindings[index]? = some binding) :
    ∃ step op args body, steps[index]? = some step ∧ Operator.ofText step.operator = .ok op ∧
      binding.expr = .apply op args ∧ List.Forall₂ (Operand.TakenAs op) step.consumed args ∧
        binding.expr.emit = .obj [(op.id, body)] ∧ op.Takes args body := by
  have implements := Pipeline.implements_of_tryCompile run produced
  obtain ⟨step, atStep, op, args, spelled, rfl, matched⟩ :=
    exists_getElem?_of_forall₂ implements.bindings.flip atIndex
  obtain ⟨other, spelled', present, _⟩ := (implements.admissible index step atStep).operator
  cases spelled.unique spelled'
  have taken : List.Forall₂ (Operand.TakenAs op) step.consumed args := by
    rw [Step.consumed_eq spelled]
    exact matched.imp fun _ _ => Operand.TakenAs.of_expr?
  have emitted : Expr.emit (.apply op args) = .obj [(op.id, Expr.emitArgs op (Expr.emitAll args))] := by
    rw [Expr.emit]
  exact ⟨step, op, args, _, atStep, Operator.ofText_ok_iff.mpr spelled, rfl, taken, emitted,
    Operator.takes_emitArgs present matched⟩

/-- The line of an order: its year is the result of an earlier step, and so converted. -/
theorem shape_of_order_line :
    Scope.orders.tryCompile Scope.orders.steps = .ok (.compiled "line" Scope.orders.pipeline) ∧
      ∃ step op args body, Scope.orders.steps[2]? = some step ∧ Operator.ofText step.operator = .ok op ∧
        Expr.apply .concat [.field "__calc_lookup_customer.since", .toText (.field "year")] = .apply op args ∧
          List.Forall₂ (Operand.TakenAs op) step.consumed args ∧
            Expr.emit (.apply .concat [.field "__calc_lookup_customer.since", .toText (.field "year")]) =
              .obj [(op.id, body)] ∧ op.Takes args body :=
  ⟨Scope.orders.compiles, results_apply_operator_to_operands Scope.orders.compiles rfl
    (show Scope.orders.pipeline.bindings[2]? = some ⟨"line", _⟩ from rfl)⟩

end ComputedFields
