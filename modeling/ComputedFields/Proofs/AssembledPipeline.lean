import ComputedFields.Proofs.AppendedSteps
import ComputedFields.Proofs.EmittedOrder
import ComputedFields.Proofs.UnreadOperand

namespace ComputedFields

/-- The steps end in `last`, which is compiled to the expression `e` where the steps in front of it have led. -/
def Scope.EndsIn (scope : Scope) (steps : List Step) (last : Step) (e : Expr) : Prop :=
  ∃ earlier bindings table grown, steps = earlier ++ [last] ∧
    scope.compileFrom 0 [] .empty earlier = .ok (bindings, table) ∧
      last.compile scope (bindings.map (·.name)).reverse table = (.ok ⟨last.output, e⟩, grown)

/-- Whatever is bound to the name of the last result before it, the last result is the one that counts. -/
theorem Pipeline.get?_of_last (lookups : List Lookup) (earlier : List Binding) (name : String) (e : Expr) :
    Pipeline.get? ⟨lookups, earlier ++ [⟨name, e⟩]⟩ name = some e :=
  Pipeline.get?_eq_some_iff.mpr ⟨earlier, [], rfl, List.not_mem_nil⟩

namespace Scope

variable {scope : Scope} {steps : List Step}

/-- The pass blames a step for every error. -/
theorem step_of_compileFrom_error {index : Nat} {prior : List String} {table : Lookup.Table} {e : CompileError}
    (run : scope.compileFrom index prior table steps = .error e) : ∃ i error, e = .step i error := by
  induction steps generalizing index prior table with
  | nil => cases run
  | cons step rest ih =>
    rw [compileFrom] at run
    split at run
    · cases run
      exact ⟨index, _, rfl⟩
    · split at run
      · rename_i later
        cases run
        exact ih later
      · cases run

/-- The assembled pipeline is checked once more, but no steps make this check fail. -/
theorem tryCompile_ne_inconsistent (name : String) : scope.tryCompile steps ≠ .error (.inconsistent name) := by
  intro failed
  obtain ⟨_, run⟩ := tryCompile_error_iff.mp failed
  obtain ⟨_, _, other⟩ := step_of_compileFrom_error run
  cases other

theorem compile_eq_invalid_iff : scope.compile steps = .invalid ↔ ∃ e, scope.tryCompile steps = .error e := by
  cases filled : Step.isTrivial steps with
  | true => simp [compile, tryCompile_trivial filled, Outcome.nothing, Outcome.invalid]
  | false =>
    cases run : scope.tryCompile steps with
    | error e => simp [compile, run]
    | ok outcome =>
      obtain ⟨_, _, _, _, _, rfl⟩ := (tryCompile_ok_iff filled).mp run
      simp [compile, run, Outcome.compiled, Outcome.invalid]

/-- All of a compiled outcome comes from the pass: the results, the lookups of its last table, and the name of its last
result. -/
theorem compile_eq_compiled_iff {final : String} {pipeline : Pipeline} :
    scope.compile steps = .compiled final pipeline ↔ Step.isTrivial steps = false ∧
      ∃ bindings table last, scope.compileFrom 0 [] .empty steps = .ok (bindings, table) ∧
        bindings.getLast? = some last ∧ final = last.name ∧ pipeline = ⟨table.lookups, bindings⟩ := by
  cases filled : Step.isTrivial steps with
  | true => simp [compile, tryCompile_trivial filled, Outcome.nothing, Outcome.compiled]
  | false =>
    cases run : scope.tryCompile steps with
    | error e =>
      obtain ⟨_, failed⟩ := tryCompile_error_iff.mp run
      simp [compile, run, failed, Outcome.invalid, Outcome.compiled]
    | ok outcome =>
      obtain ⟨bindings, table, last, compiled, ends, rfl⟩ := (tryCompile_ok_iff filled).mp run
      simp only [compile, run, compiled, Outcome.compiled, Outcome.mk.injEq, Option.some.injEq, Except.ok.injEq,
        Prod.mk.injEq, true_and]
      constructor
      · rintro ⟨rfl, rfl⟩
        exact ⟨bindings, table, last, ⟨rfl, rfl⟩, ends, rfl, rfl⟩
      · rintro ⟨_, _, _, ⟨rfl, rfl⟩, found, rfl, rfl⟩
        rw [ends] at found
        cases found
        exact ⟨rfl, rfl⟩

/-- The state in which the pass reaches its last step, and what it adds there. -/
theorem endsIn_of_compileFrom {bindings : List Binding} {table : Lookup.Table} {binding : Binding}
    (run : scope.compileFrom 0 [] .empty steps = .ok (bindings, table)) (ends : bindings.getLast? = some binding) :
    ∃ last e earlier, scope.EndsIn steps last e ∧ binding = ⟨last.output, e⟩ ∧
      bindings = earlier ++ [⟨last.output, e⟩] := by
  obtain rfl | ⟨front, last, rfl⟩ := steps.eq_nil_or_concat
  · cases run
    cases ends
  · rw [List.concat_eq_append] at run ⊢
    obtain ⟨first, middle, second, before, after, rfl⟩ := compileFrom_append_ok run
    obtain ⟨_, _, _, here, later, rfl⟩ := compileFrom_cons_ok.mp after
    obtain ⟨op, args, _, _, _, _, rfl⟩ := Step.compile_ok_iff.mp here
    cases later
    rw [List.getLast?_append, List.getLast?_singleton, Option.some_or, Option.some.injEq] at ends
    rw [List.append_nil] at here
    exact ⟨last, .apply op args, first, ⟨front, first, middle, table, rfl, before, here⟩, ends.symm, rfl⟩

end Scope

/-- Steps come out as a whole or not at all. The result is invalid exactly if the pass fails, which it never does over
its own assembly, and there is nothing to do exactly if the steps are trivial. In all other cases there is one result
per step, under the name of the step, and the final name stands for what the last step was compiled to, even if it was
bound before. -/
theorem assembly_all_or_nothing (scope : Scope) (steps : List Step) :
    (∀ name, scope.tryCompile steps ≠ .error (.inconsistent name)) ∧
    (scope.compile steps = ⟨false, none, none⟩ ↔ ∃ e, scope.tryCompile steps = .error e) ∧
    (scope.compile steps = ⟨true, none, none⟩ ↔ Step.isTrivial steps = true) ∧
    ((∃ final pipeline, scope.compile steps = ⟨true, some final, some pipeline⟩) ↔
      (¬∃ e, scope.tryCompile steps = .error e) ∧ ¬Step.isTrivial steps = true) ∧
    ∀ final pipeline, scope.compile steps = ⟨true, some final, some pipeline⟩ →
      pipeline.bindings.map (·.name) = steps.map (·.output) ∧
        ∃ last e, scope.EndsIn steps last e ∧ final = last.output ∧ pipeline.get? final = some e := by
  refine ⟨fun _ => Scope.tryCompile_ne_inconsistent _, Scope.compile_eq_invalid_iff, Scope.compile_eq_nothing_iff,
    ?_, ?_⟩
  · constructor
    · rintro ⟨final, pipeline, compiled⟩
      rw [← Scope.compile_eq_invalid_iff, ← Scope.compile_eq_nothing_iff, compiled]
      exact ⟨nofun, nofun⟩
    · rintro ⟨passes, filled⟩
      have filled := eq_false_of_ne_true filled
      cases run : scope.tryCompile steps with
      | error e => exact absurd ⟨e, run⟩ passes
      | ok outcome =>
        obtain ⟨bindings, table, last, _, _, rfl⟩ := (Scope.tryCompile_ok_iff filled).mp run
        exact ⟨last.name, ⟨table.lookups, bindings⟩, by rw [Scope.compile, run]; rfl⟩
  · intro final pipeline compiled
    obtain ⟨_, bindings, table, _, run, ends, rfl, rfl⟩ := Scope.compile_eq_compiled_iff.mp compiled
    obtain ⟨last, e, earlier, endsIn, rfl, rfl⟩ := Scope.endsIn_of_compileFrom run ends
    have names := names_of_yields (Pipeline.implements_of_compileFrom run).bindings
    exact ⟨names, last, e, endsIn, rfl, Pipeline.get?_of_last table.lookups earlier last.output e⟩

/-- The line of an order is bound twice. It is the sum in the end. -/
theorem assembly_of_orders :
    Scope.orders.compile Scope.orders.steps = ⟨true, some "line", some Scope.orders.pipeline⟩ ∧
      Scope.orders.pipeline.bindings.map (·.name) = ["pair", "year", "line", "line"] ∧
        ∃ last e, Scope.orders.EndsIn Scope.orders.steps last e ∧ "line" = last.output ∧
          Scope.orders.pipeline.get? "line" = some e :=
  ⟨rfl, (assembly_all_or_nothing Scope.orders Scope.orders.steps).2.2.2.2 "line" Scope.orders.pipeline rfl⟩

end ComputedFields
