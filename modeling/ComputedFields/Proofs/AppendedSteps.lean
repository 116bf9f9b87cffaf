import ComputedFields.Proofs.CompiledRun
import ComputedFields.Proofs.RootedLookups

namespace ComputedFields

theorem Step.isTrivial_append {steps : List Step} (filled : Step.isTrivial steps = false) (more : List Step) :
    Step.isTrivial (steps ++ more) = false := by
  cases steps with
  | nil => cases filled
  | cons first rest =>
    cases rest with
    | cons second rest => rfl
    | nil =>
      cases more with
      | nil => exact filled
      | cons next others => rfl

section

variable {scope : Scope} {op : Operator} {prior : List String} {table final : Lookup.Table}

/-- No operand takes a lookup away, whatever becomes of it. -/
theorem Operand.growsTo_compile (scope : Scope) (op : Operator) (prior : List String) (table : Lookup.Table)
    (operand : Operand) : table.GrowsTo (operand.compile scope op prior table).2 := by
  have unchanged : table.GrowsTo table := List.prefix_refl _
  cases kind : operand.kind with
  | constant => simpa only [Operand.compile, kind] using unchanged
  | previousStep => simpa only [Operand.compile, kind] using unchanged
  | field =>
    cases found : scope.schema.resolve scope.root (operand.text?.getD "") with
    | error e => simpa only [Operand.compile, compileField, kind, found] using unchanged
    | ok resolved =>
      simp only [Operand.compile, kind, Lookup.Table.Represents.compileField_table found]
      exact table.growsTo_registerFrom [] none resolved.chain

theorem CompiledArgs.growsTo {operands : List Operand} {args : List Expr}
    (compiled : CompiledArgs scope op prior table operands args final) : table.GrowsTo final := by
  induction compiled with
  | nil => exact List.prefix_refl _
  | @cons table middle _ operand _ _ _ run _ ih =>
    have first := operand.growsTo_compile scope op prior table
    rw [run] at first
    exact first.trans ih

/-- A whole pass only adds lookups behind those that were there, since every operand does. -/
theorem Scope.growsTo_of_compileFrom {index : Nat} {steps : List Step} {bindings : List Binding}
    (run : scope.compileFrom index prior table steps = .ok (bindings, final)) : table.GrowsTo final := by
  induction steps generalizing index prior table bindings with
  | nil =>
    cases run
    exact List.prefix_refl _
  | cons step rest ih =>
    obtain ⟨binding, grown, more, first, later, _⟩ := compileFrom_cons_ok.mp run
    obtain ⟨_, _, _, _, _, compiled, _⟩ := Step.compile_ok_iff.mp first
    exact compiled.growsTo.trans (ih later)

end

namespace Scope

variable {scope : Scope} {index : Nat} {prior : List String} {table final : Lookup.Table} {steps more : List Step}
  {bindings : List Binding} {e : CompileError}

/-- The pass stops at the first error, so what comes behind it is never looked at. -/
theorem compileFrom_append_error (run : scope.compileFrom index prior table steps = .error e) (more : List Step) :
    scope.compileFrom index prior table (steps ++ more) = .error e := by
  induction steps generalizing index prior table with
  | nil => cases run
  | cons step rest ih =>
    rw [compileFrom] at run
    rw [List.cons_append, compileFrom]
    rcases here : step.compile scope prior table with ⟨result, grown⟩
    rw [here] at run
    cases result with
    | error wrong => exact run
    | ok binding =>
      cases later : scope.compileFrom (index + 1) (binding.name :: prior) grown rest with
      | error wrong =>
        simp only [later] at run
        obtain rfl := Except.error.inj run
        simp only [ih later]
      | ok pair =>
        simp only [later] at run
        cases run

/-- A pass over more steps has gone through the first ones by itself, and then on from where they led. -/
theorem compileFrom_append_ok (run : scope.compileFrom index prior table (steps ++ more) = .ok (bindings, final)) :
    ∃ first middle second, scope.compileFrom index prior table steps = .ok (first, middle) ∧
      scope.compileFrom (index + steps.length) ((first.map (·.name)).reverse ++ prior) middle more =
        .ok (second, final) ∧ bindings = first ++ second := by
  induction steps generalizing index prior table bindings with
  | nil => exact ⟨[], table, bindings, rfl, run, rfl⟩
  | cons step rest ih =>
    rw [List.cons_append] at run
    obtain ⟨binding, grown, others, here, later, rfl⟩ := compileFrom_cons_ok.mp run
    obtain ⟨first, middle, second, before, after, rfl⟩ := ih later
    refine ⟨binding :: first, middle, second, ?_, ?_, rfl⟩
    · exact compileFrom_cons_ok.mpr ⟨binding, grown, first, here, before, rfl⟩
    · have position : index + (step :: rest).length = index + 1 + rest.length := by
        rw [List.length_cons]
        omega
      rw [position, List.map_cons, List.reverse_cons, List.append_assoc]
      exact after

end Scope

/-- Further steps change nothing about those in front of them. An error stays the error, and a pipeline begins with the
pipeline of the first steps, in its lookups as in its results. -/
theorem appended_steps_conservative (scope : Scope) (steps more : List Step) :
    (∀ e, scope.tryCompile steps = .error e → scope.tryCompile (steps ++ more) = .error e) ∧
      ∀ outcome pipeline, scope.tryCompile (steps ++ more) = .ok outcome → outcome.pipeline = some pipeline →
        Step.isTrivial steps = false →
          ∃ outcome' pipeline', scope.tryCompile steps = .ok outcome' ∧ outcome'.pipeline = some pipeline' ∧
            pipeline'.lookups <+: pipeline.lookups ∧ pipeline'.bindings = pipeline.bindings.take steps.length := by
  constructor
  · intro e failed
    obtain ⟨filled, run⟩ := Scope.tryCompile_error_iff.mp failed
    exact Scope.tryCompile_error_iff.mpr ⟨Step.isTrivial_append filled more, Scope.compileFrom_append_error run more⟩
  · intro outcome pipeline run produced filled
    obtain ⟨bindings, table, last, compiled, _, rfl⟩ :=
      (Scope.tryCompile_ok_iff (Step.isTrivial_append filled more)).mp run
    cases produced
    obtain ⟨first, middle, second, before, after, rfl⟩ := Scope.compileFrom_append_ok compiled
    have ends := List.getLast?_eq_some_getLast (Scope.bindings_ne_nil filled before)
    have alone := (Scope.tryCompile_ok_iff filled).mpr ⟨first, middle, _, before, ends, rfl⟩
    have each := (Pipeline.implements_of_compileFrom before).bindings.length_eq
    refine ⟨_, _, alone, rfl, (Scope.growsTo_of_compileFrom after).lookups, ?_⟩
    rw [each]
    exact List.take_left.symm

/-- The steps of an order with the first one put last: only there is the second lookup needed. Behind steps of which
one fails, they are not looked at. -/
theorem orders_appended :
    (Scope.orders.tryCompile Scope.orders.broken = .error (.step 1 (.path (.fieldNotFound "customer" "friend"))) ∧
      Scope.orders.tryCompile (Scope.orders.broken ++ Scope.orders.steps) =
        .error (.step 1 (.path (.fieldNotFound "customer" "friend")))) ∧
    ∃ outcome pipeline outcome' pipeline', Step.isTrivial (Scope.orders.steps.drop 1) = false ∧
      Scope.orders.tryCompile (Scope.orders.steps.drop 1 ++ Scope.orders.steps.take 1) = .ok outcome ∧
        outcome.pipeline = some pipeline ∧ pipeline.lookups = Scope.orders.pipeline.lookups ∧
          Scope.orders.tryCompile (Scope.orders.steps.drop 1) = .ok outcome' ∧ outcome'.pipeline = some pipeline' ∧
            pipeline'.lookups <+: pipeline.lookups ∧ pipeline'.bindings = pipeline.bindings.take 3 := by
  refine ⟨⟨rfl, (appended_steps_conservative _ _ _).1 _ rfl⟩, ?_⟩
  obtain ⟨outcome', pipeline', part⟩ := (appended_steps_conservative Scope.orders (Scope.orders.steps.drop 1)
    (Scope.orders.steps.take 1)).2 _ _ rfl rfl rfl
  exact ⟨_, _, outcome', pipeline', rfl, rfl, rfl, rfl, part⟩

end ComputedFields
