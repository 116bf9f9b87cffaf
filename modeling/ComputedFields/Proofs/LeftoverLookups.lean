import ComputedFields.Proofs.AgreeingDiagnosis

namespace ComputedFields

namespace Scope

/-- The error that the diagnosis of `steps` shows at `index`. -/
def errorAt? (scope : Scope) (steps : List Step) (index : Nat) : Option CompileError :=
  (scope.diagnose steps)[index]?.bind (·.error)

/-- The lookups in front of the step at `index`, with nothing from the steps that have an error. -/
def keptBefore (scope : Scope) (steps : List Step) : Nat → Lookup.Table
  | 0 => .empty
  | index + 1 =>
    match steps[index]?, scope.errorAt? steps index with
    | some step, none => (step.compile scope (knownBefore steps index) (scope.keptBefore steps index)).2
    | _, _ => scope.keptBefore steps index

/-- The error of the step at `index` if no step that failed before it has left anything behind. -/
def errorApart? (scope : Scope) (steps : List Step) (index : Nat) (step : Step) : Option CompileError :=
  (failure? (step.compile scope (knownBefore steps index) (scope.keptBefore steps index)).1).map (.step index)

/-- A step with an error, in front of the one at `index`, whose fields lead through `path`. -/
def LeftBehind (scope : Scope) (steps : List Step) (index : Nat) (path : List String) : Prop :=
  ∃ earlier < index, ∃ step, steps[earlier]? = some step ∧ scope.errorAt? steps earlier ≠ none ∧
    path ∈ step.relationPaths

variable {scope : Scope} {steps : List Step} {index : Nat} {step : Step}

theorem LeftBehind.mono {path : List String} {later : Nat} (left : scope.LeftBehind steps index path)
    (after : index ≤ later) : scope.LeftBehind steps later path := by
  obtain ⟨earlier, before, rest⟩ := left
  exact ⟨earlier, before.trans_le after, rest⟩

theorem errorAt?_eq (scope : Scope) (filled : Step.isTrivial steps = false) (atStep : steps[index]? = some step) :
    scope.errorAt? steps index =
      (failure? (step.compile scope (knownBefore steps index) (scope.progressBefore steps index).table).1).map
        (.step index) := by
  rw [errorAt?, diagnose_getElem? scope filled, atStep, Option.map_some, Option.bind_some, Step.diagnosis,
    progressBefore_known]

/-- What ties the lookups that a diagnosis has registered to those of the steps without an error: the former serve
more paths, and only because of steps that failed. -/
theorem progressBefore_keptBefore (scope : Scope) (filled : Step.isTrivial steps = false) (index : Nat) :
    ∃ used kept, (scope.progressBefore steps index).table.Represents scope used ∧
      (scope.keptBefore steps index).Represents scope kept ∧ kept ⊆ used ∧
        ∀ path ∈ used, path ∉ kept → scope.LeftBehind steps index path := by
  induction index with
  | zero =>
    refine ⟨[], [], .empty scope, .empty scope, List.nil_subset _, ?_⟩
    exact fun _ member => absurd member List.not_mem_nil
  | succ index ih =>
    obtain ⟨used, kept, represents, represents', included, left⟩ := ih
    cases atStep : steps[index]? with
    | none =>
      simp only [progressBefore_succ_of_none atStep, keptBefore, atStep]
      exact ⟨used, kept, represents, represents', included,
        fun path member new => (left path member new).mono (Nat.le_succ index)⟩
    | some step =>
      have error := scope.errorAt?_eq filled atStep
      have failure := represents.failure?_compileStep (knownBefore steps index) step
      have failure' := represents'.failure?_compileStep (knownBefore steps index) step
      simp only [progressBefore_succ atStep, Progress.next, progressBefore_known, keptBefore, atStep]
      rcases run : step.compile scope (knownBefore steps index) (scope.progressBefore steps index).table with
        ⟨result, grown⟩
      rw [run] at error failure
      cases result with
      | ok binding =>
        -- A step that goes through with the leftovers goes through without them, and both tables take its paths.
        have quiet := Option.or_eq_none_iff.mp failure.symm
        have quiet' := Lookup.clash?_eq_none_of_subset included (Option.map_eq_none_iff.mp quiet.1)
        rw [quiet', quiet.2, Option.map_none, Option.none_or, failure?_eq_none_iff] at failure'
        obtain ⟨binding', accepted⟩ := failure'
        have again : step.compile scope (knownBefore steps index) (scope.keptBefore steps index) =
            (.ok binding', (step.compile scope (knownBefore steps index) (scope.keptBefore steps index)).2) :=
          Prod.ext accepted rfl
        simp only [error, failure?, Option.map_none]
        refine ⟨used ++ step.relationPaths, kept ++ step.relationPaths, (represents.compileStep run).1,
          (represents'.compileStep again).1, ?_, ?_⟩
        · exact List.append_subset.mpr
            ⟨List.subset_append_of_subset_left _ included, List.subset_append_right _ _⟩
        · intro path member new
          have old := (List.mem_append.mp member).resolve_right fun own => new (List.mem_append_right _ own)
          exact (left path old fun inKept => new (List.mem_append_left _ inKept)).mono (Nat.le_succ index)
      | error e =>
        obtain ⟨more, asked, after⟩ := represents.after_compileStep (knownBefore steps index) step
        rw [run] at after
        simp only [error, failure?, Option.map_some]
        refine ⟨used ++ more, kept, after, represents', List.subset_append_of_subset_left _ included, ?_⟩
        intro path member new
        rcases List.mem_append.mp member with old | own
        · exact (left path old new).mono (Nat.le_succ index)
        · have failed : scope.errorAt? steps index ≠ none := by
            rw [error]
            exact Option.some_ne_none _
          exact ⟨index, Nat.lt_succ_self index, step, atStep, failed, asked own⟩

end Scope

/-- What is wrong with a step by itself is never a clash, so an error tells whether there was one. -/
theorem clash_or_fault_inj {index : Nat} {fault : Option StepError} (own : ∀ name, fault ≠ some (.collision name))
    {clash clash' : Option String} :
    ((clash.map .collision).or fault).map (CompileError.step index) =
      ((clash'.map .collision).or fault).map (CompileError.step index) ↔ clash = clash' := by
  have injective : Function.Injective (CompileError.step index) := fun _ _ same => (CompileError.step.inj same).2
  rw [(Option.map_injective injective).eq_iff]
  cases clash with
  | none =>
    cases clash' with
    | none => simp only
    | some name => simpa using own name
  | some name =>
    cases clash' with
    | none => simpa using (own name).symm
    | some name' => simp

/-- A diagnosis shows the error that a step has by itself exactly if the lookups that failed steps have left behind do
not change the first clash of its paths. If they do, what it shows is a clash with a path of such a step. -/
theorem diagnosis_independent_iff {scope : Scope} {steps : List Step} {index : Nat} {step : Step}
    (filled : Step.isTrivial steps = false) (atStep : steps[index]? = some step) :
    (scope.errorAt? steps index = scope.errorApart? steps index step ↔
      Lookup.clash? (scope.progressBefore steps index).table.paths (step.asked scope (knownBefore steps index)) =
        Lookup.clash? (scope.keptBefore steps index).paths (step.asked scope (knownBefore steps index))) ∧
    (scope.errorAt? steps index ≠ scope.errorApart? steps index step →
      ∃ path ∈ step.asked scope (knownBefore steps index), ∃ other, scope.LeftBehind steps index other ∧
        other ≠ path ∧ Lookup.nameOf other = Lookup.nameOf path ∧
          scope.errorAt? steps index = some (.step index (.collision (Lookup.nameOf path)))) := by
  obtain ⟨used, kept, represents, represents', included, left⟩ := scope.progressBefore_keptBefore filled index
  rw [scope.errorAt?_eq filled atStep, Scope.errorApart?, represents.failure?_compileStep,
    represents'.failure?_compileStep, represents.serves.clash?_paths, represents'.serves.clash?_paths,
    ne_eq, clash_or_fault_inj Step.fault?_ne_collision]
  refine ⟨Iff.rfl, fun changed => ?_⟩
  obtain ⟨path, asked, other, member, new, different, same, clash⟩ :=
    (Lookup.clash?_of_subset included (step.asked scope (knownBefore steps index))).resolve_left changed
  refine ⟨path, asked, other, left other member new, different, same, ?_⟩
  rw [clash]
  rfl

def Scope.deliveries.own : Step where
  output := "b"
  operator := "$concat"
  operand1 := .field "customer_address.city"
  operand2 := some (.constant (.str ""))

/-- The first step lacks a constant. By then it has asked for the address of the customer. -/
def Scope.deliveries.steps : List Step :=
  [{ output := "a", operator := "$concat", operand1 := .field "customer.address.city",
      operand2 := some (.constant .null) }, Scope.deliveries.own]

theorem diagnosis_of_deliveries :
    Step.isTrivial Scope.deliveries.steps = false ∧ Scope.deliveries.steps[1]? = some Scope.deliveries.own ∧
      ∃ path ∈ Scope.deliveries.own.asked Scope.deliveries (knownBefore Scope.deliveries.steps 1), ∃ other,
        Scope.deliveries.LeftBehind Scope.deliveries.steps 1 other ∧ other ≠ path ∧
          Lookup.nameOf other = Lookup.nameOf path ∧ Scope.deliveries.errorAt? Scope.deliveries.steps 1 =
            some (.step 1 (.collision (Lookup.nameOf path))) := by
  refine ⟨rfl, rfl, (diagnosis_independent_iff rfl rfl).2 ?_⟩
  exact Option.some_ne_none (CompileError.step 1 (.collision "__calc_lookup_customer_address"))

/-- A step that is all right by itself is refused because of a lookup that a failed step has left behind. -/
theorem leftover_lookup_refuses_step :
    Scope.deliveries.errorAt? Scope.deliveries.steps 0 = some (.step 0 (.operand .missingConstant)) ∧
      Scope.deliveries.errorAt? Scope.deliveries.steps 1 =
          some (.step 1 (.collision "__calc_lookup_customer_address")) ∧
        Scope.deliveries.errorApart? Scope.deliveries.steps 1 Scope.deliveries.own = none :=
  ⟨rfl, rfl, rfl⟩

end ComputedFields
