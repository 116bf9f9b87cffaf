import ComputedFields.Proofs.CompiledRun

namespace ComputedFields

/-- When a list of steps compiles, without a word on how the pass goes about it: each name, each operator and each
operand is in order by itself, and over the whole list no two relation paths share the name of their lookup. -/
structure Scope.Accepts (scope : Scope) (steps : List Step) : Prop where
  names : ∀ step ∈ steps, AllowedName step.output
  operators : ∀ step ∈ steps, ∃ op : Operator, op.Spelled step.operator
  present : ∀ step ∈ steps, ∀ op : Operator, op.Spelled step.operator → op.arity = .binary →
    step.operand2.isSome = true
  operands : ∀ (index : Nat) (step : Step), steps[index]? = some step → ∀ op : Operator, op.Spelled step.operator →
    ∀ operand ∈ step.operandsOf op, operand.Admissible scope op (namesBefore steps index)
  apart : Lookup.Apart (steps.flatMap Step.relationPaths)

namespace Scope.Accepts

variable {scope : Scope} {steps : List Step}

/-- What is asked of the steps as a whole gives what the pass asks of each in its turn. -/
theorem admissible (accepts : scope.Accepts steps) {index : Nat} {step : Step} (atStep : steps[index]? = some step) :
    step.Admissible scope (namesBefore steps index) := by
  have member := List.mem_of_getElem? atStep
  obtain ⟨op, spelled⟩ := accepts.operators step member
  exact ⟨accepts.names step member, op, spelled, accepts.present step member op spelled,
    accepts.operands index step atStep op spelled⟩

/-- The other way round, nothing is asked of the steps as a whole beyond each of them and the names of their lookups. -/
theorem of_admissible
    (admissible : ∀ (index : Nat) (step : Step), steps[index]? = some step →
      step.Admissible scope (namesBefore steps index))
    (apart : Lookup.Apart (steps.flatMap Step.relationPaths)) : scope.Accepts steps := by
  have somewhere : ∀ step ∈ steps, ∃ index, step.Admissible scope (namesBefore steps index) := by
    intro step member
    obtain ⟨index, atStep⟩ := List.mem_iff_getElem?.mp member
    exact ⟨index, admissible index step atStep⟩
  refine ⟨?_, ?_, ?_, ?_, apart⟩
  · intro step member
    obtain ⟨_, admitted⟩ := somewhere step member
    exact admitted.name
  · intro step member
    obtain ⟨_, _, op, spelled, _⟩ := somewhere step member
    exact ⟨op, spelled⟩
  · intro step member op spelled
    obtain ⟨_, _, other, spelled', present, _⟩ := somewhere step member
    cases spelled.unique spelled'
    exact present
  · intro index step atStep op spelled
    obtain ⟨_, other, spelled', _, operands⟩ := admissible index step atStep
    cases spelled.unique spelled'
    exact operands

end Scope.Accepts

/-- The pass accepts a list of steps exactly if it is in order, whatever order the checks are made in. -/
theorem tryCompile_accepts_iff {scope : Scope} {steps : List Step} (filled : Step.isTrivial steps = false) :
    (∃ outcome, scope.tryCompile steps = .ok outcome) ↔ scope.Accepts steps := by
  constructor
  · rintro ⟨outcome, run⟩
    obtain ⟨bindings, table, last, compiled, _, _⟩ := (Scope.tryCompile_ok_iff filled).mp run
    have implements := Pipeline.implements_of_compileFrom compiled
    exact .of_admissible implements.admissible implements.apart
  · intro accepts
    have admissible : ∀ (index : Nat) (step : Step), steps[index]? = some step →
        step.Admissible scope ([] ++ namesBefore steps index) := fun _ _ => accepts.admissible
    obtain ⟨bindings, table, compiled⟩ := Scope.compileFrom_exists (.empty scope) admissible accepts.apart 0
    have last := List.getLast?_eq_some_getLast (Scope.bindings_ne_nil filled compiled)
    exact ⟨_, (Scope.tryCompile_ok_iff filled).mpr ⟨bindings, table, _, compiled, last, rfl⟩⟩

theorem orders_accepted : Step.isTrivial Scope.orders.steps = false ∧ Scope.orders.Accepts Scope.orders.steps :=
  ⟨rfl, (tryCompile_accepts_iff rfl).mp ⟨_, Scope.orders.compiles⟩⟩

end ComputedFields
