import ComputedFields.Proofs.CompiledRun

namespace ComputedFields

namespace Step

/-- The step with another second operand, or with none. -/
def withSecond (step : Step) (second : Option Operand) : Step := { step with operand2 := second }

theorem isBlank_iff {step : Step} :
    step.isBlank = true ↔ step.operand1.isPopulated = false ∧ step.operand2.any Operand.isPopulated = false := by
  rw [isBlank]
  cases step.operand2 with
  | none => simp only [Bool.and_true, Bool.not_eq_true', Option.any_none, and_true]
  | some operand => simp only [Bool.and_eq_true, Bool.not_eq_true', Option.any_some]

theorem isTrivial_around {before after : List Step} {step : Step} :
    isTrivial (before ++ step :: after) = true ↔ before = [] ∧ after = [] ∧ step.isBlank = true := by
  cases before with
  | nil =>
    cases after with
    | nil => simp only [List.nil_append, isTrivial, true_and]
    | cons => simp only [List.nil_append, isTrivial, Bool.false_eq_true, reduceCtorEq, false_and, and_false]
  | cons first rest =>
    cases rest with
    | nil => simp only [List.cons_append, List.nil_append, isTrivial, Bool.false_eq_true, reduceCtorEq, false_and]
    | cons => simp only [List.cons_append, isTrivial, Bool.false_eq_true, reduceCtorEq, false_and]

variable {step : Step} {op : Operator}

/-- A unary operator does not look at the second operand, so any other may stand there. -/
theorem compileArgs_withSecond (unary : op.arity = .unary) (second : Option Operand) (scope : Scope)
    (prior : List String) (table : Lookup.Table) :
    compileArgs scope op prior table (step.withSecond second) = compileArgs scope op prior table step := by
  simp only [compileArgs, withSecond, unary]

/-- A unary step never comes to its second operand, be it to compile it or to take its lookups. -/
theorem compile_withSecond (parsed : Operator.ofText step.operator = .ok op) (unary : op.arity = .unary)
    (second : Option Operand) (scope : Scope) (prior : List String) (table : Lookup.Table) :
    (step.withSecond second).compile scope prior table = step.compile scope prior table := by
  have shape : compileShape (step.withSecond second) = compileShape step := rfl
  have output : (step.withSecond second).output = step.output := rfl
  rw [Step.compile, Step.compile, shape]
  cases shaped : compileShape step with
  | error e => rfl
  | ok other =>
    obtain ⟨_, spelled⟩ := compileShape_ok_iff.mp shaped
    obtain rfl := spelled.unique (Operator.ofText_ok_iff.mp parsed)
    simp only [compileArgs_withSecond unary, output]

end Step

namespace Scope

variable {scope : Scope} {steps before after : List Step} {step other : Step}

/-- Where a step is replaced by one that compiles alike, whatever came before it, the pass takes the same course. -/
theorem compileFrom_replace
    (alike : ∀ prior table, step.compile scope prior table = other.compile scope prior table) (before after : List Step)
    (index : Nat) (prior : List String) (table : Lookup.Table) :
    scope.compileFrom index prior table (before ++ step :: after) =
      scope.compileFrom index prior table (before ++ other :: after) := by
  induction before generalizing index prior table with
  | nil => rw [List.nil_append, List.nil_append, compileFrom, compileFrom, alike]
  | cons first rest ih =>
    rw [List.cons_append, List.cons_append, compileFrom, compileFrom]
    simp only [ih]

/-- The valid outcome without a pipeline stands for nothing but steps that nobody has filled in. -/
theorem compile_eq_nothing_iff : scope.compile steps = .nothing ↔ Step.isTrivial steps = true := by
  constructor
  · intro nothing
    by_contra filled
    have filled := eq_false_of_ne_true filled
    rw [compile] at nothing
    split at nothing
    · rename_i outcome run
      obtain ⟨_, _, _, _, _, rfl⟩ := (tryCompile_ok_iff filled).mp run
      cases nothing
    · cases nothing
  · intro trivial
    rw [compile, tryCompile_trivial trivial]

/-- Two such passes differ only in whether they are made at all. -/
theorem compile_replace_iff (alike : ∀ prior table, step.compile scope prior table = other.compile scope prior table) :
    scope.compile (before ++ step :: after) = scope.compile (before ++ other :: after) ↔
      Step.isTrivial (before ++ step :: after) = Step.isTrivial (before ++ other :: after) := by
  constructor
  · intro same
    rw [Bool.eq_iff_iff, ← @compile_eq_nothing_iff scope, ← @compile_eq_nothing_iff scope, same]
  · intro trivial
    rw [compile, compile, tryCompile, tryCompile, trivial, compileFrom_replace alike]

end Scope

/-- The second operand of a unary step has no influence on the outcome, except where it is all that there is: a single
step without a first operand counts as filled in by its second one alone. -/
theorem unread_operand_without_influence (scope : Scope) (before after : List Step) (step : Step) (op : Operator)
    (parsed : Operator.ofText step.operator = .ok op) (unary : op.arity = .unary) (second : Option Operand) :
    (scope.compile (before ++ step.withSecond second :: after) = scope.compile (before ++ step :: after) ↔
      ¬(before = [] ∧ after = [] ∧ step.operand1.isPopulated = false ∧
        second.any Operand.isPopulated ≠ step.operand2.any Operand.isPopulated)) ∧
    (step.operand1.isPopulated = false →
      (scope.compile [step.withSecond second] = .nothing ↔ second.any Operand.isPopulated = false)) := by
  have first : (step.withSecond second).operand1 = step.operand1 := rfl
  have replaced : (step.withSecond second).operand2 = second := rfl
  constructor
  · rw [Scope.compile_replace_iff (Step.compile_withSecond parsed unary second scope), Bool.eq_iff_iff,
      Step.isTrivial_around, Step.isTrivial_around, Step.isBlank_iff, Step.isBlank_iff, first, replaced]
    simp only [and_congr_right_iff, Bool.coe_false_iff_false, Bool.not_inj_iff, not_and, ne_eq, not_not]
  · intro unfilled
    rw [Scope.compile_eq_nothing_iff, Step.isTrivial, Step.isBlank_iff, first, replaced]
    exact and_iff_right unfilled

/-- The year in which time begins, a step whose only operand is a zero. -/
def Step.epoch : Step where
  output := "year"
  operator := "$year"
  operand1 := .constant (.num .zero)

/-- Neither a path that leads nowhere nor the lookups of one that leads somewhere come through. -/
theorem orders_with_other_unread_operand :
    Scope.orders.compile (Scope.orders.steps.modify 1 (·.withSecond (some (.field "nobody.name")))) =
        .compiled "line" Scope.orders.pipeline ∧
      Scope.orders.compile [Step.epoch.withSecond (some (.constant (.str "")))] = .nothing := by
  have parsed : Operator.ofText "$year" = .ok .year := rfl
  have unfilled : Step.epoch.operand1.isPopulated = false := by decide +kernel
  have same := (unread_operand_without_influence Scope.orders (Scope.orders.steps.take 1) (Scope.orders.steps.drop 2)
    ⟨"", "year", .field "customer.since", "$year", some (.field "customer.friends.friends.name")⟩ .year parsed rfl
    (some (.field "nobody.name"))).left.mpr (fun ⟨nobody, _⟩ => List.cons_ne_nil _ _ nobody)
  have nothing := (unread_operand_without_influence Scope.orders [] [] Step.epoch .year parsed rfl
    (some (.constant (.str "")))).right unfilled
  have compiles : Scope.orders.compile Scope.orders.steps = .compiled "line" Scope.orders.pipeline := by
    rw [Scope.compile, Scope.orders.compiles]
  exact ⟨same.trans compiles, nothing.mpr rfl⟩

/-- Filled in, the operand that nothing reads turns steps that stand for nothing into a calculation. -/
theorem unread_operand_fills_in :
    Operator.ofText Step.epoch.operator = .ok .year ∧ Operator.year.arity = .unary ∧
      Scope.orders.compile [Step.epoch] = .nothing ∧
      Scope.orders.compile [Step.epoch.withSecond (some (.field "customer_friends"))] =
        .compiled "year" ⟨[], [⟨"year", .apply .year [.toDate (.literal (.number .zero))]⟩]⟩ ∧
      Scope.orders.compile [Step.epoch.withSecond (some (.field "customer_friends"))] ≠
        Scope.orders.compile [Step.epoch] := by
  have nothing : Scope.orders.compile [Step.epoch] = .nothing :=
    Scope.compile_eq_nothing_iff.mpr (by decide +kernel)
  have filled : Step.isTrivial [Step.epoch.withSecond (some (.field "customer_friends"))] = false := by decide +kernel
  have year : Scope.orders.compile [Step.epoch.withSecond (some (.field "customer_friends"))] =
      .compiled "year" ⟨[], [⟨"year", .apply .year [.toDate (.literal (.number .zero))]⟩]⟩ := by
    rw [Scope.compile, Scope.tryCompile, filled]
    rfl
  refine ⟨rfl, rfl, nothing, year, ?_⟩
  rw [nothing, year]
  intro same
  cases same

end ComputedFields
