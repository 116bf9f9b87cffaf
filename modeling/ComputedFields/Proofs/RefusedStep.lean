import ComputedFields.Proofs.CompiledStep
import ComputedFields.Proofs.NameClash

namespace ComputedFields

/-- What is wrong with an operand by itself, whatever lookups there are. -/
def Operand.fault? (scope : Scope) (op : Operator) (prior : List String) (operand : Operand) : Option StepError :=
  match operand.kind with
  | .constant => (failure? (compileConstant op operand.value)).map .operand
  | .previousStep => (failure? (compilePrevious op prior operand)).map .operand
  | .field => (failure? (scope.schema.resolve scope.root (operand.text?.getD ""))).map .path

/-- The relation paths that operands come to ask for: those in front of the first operand that is wrong by itself. -/
def askedBy (scope : Scope) (op : Operator) (prior : List String) (operands : List Operand) : List (List String) :=
  (operands.takeWhile fun operand => (operand.fault? scope op prior).isNone).flatMap Operand.relationPaths

/-- What goes wrong first with operands that are compiled while the paths `used` are in use. -/
def verdict? (scope : Scope) (op : Operator) (prior : List String) (used : List (List String))
    (operands : List Operand) : Option StepError :=
  ((Lookup.clash? used (askedBy scope op prior operands)).map .collision).or
    (operands.findSome? (·.fault? scope op prior))

/-- A binary operator lacks its second operand. -/
def Step.missing? (step : Step) (op : Operator) : Option StepError :=
  if op.arity = .binary ∧ step.operand2.isNone then some (.operand .missingOperand) else none

/-- The relation paths that a step comes to ask for. -/
def Step.asked (scope : Scope) (prior : List String) (step : Step) : List (List String) :=
  match compileShape step with
  | .error _ => []
  | .ok op => askedBy scope op prior (step.operandsOf op)

/-- What is wrong with a step by itself, whatever lookups there are. -/
def Step.fault? (scope : Scope) (prior : List String) (step : Step) : Option StepError :=
  match compileShape step with
  | .error e => some (.shape e)
  | .ok op => ((step.operandsOf op).findSome? (·.fault? scope op prior)).or (step.missing? op)

theorem verdict?_nil (scope : Scope) (op : Operator) (prior : List String) (used : List (List String)) :
    verdict? scope op prior used [] = none := rfl

/-- The verdict on the first operand: what is wrong with it, and then a clash of its paths. The others are judged with
these paths in use. -/
theorem verdict?_cons (scope : Scope) (op : Operator) (prior : List String) (used : List (List String))
    (operand : Operand) (rest : List Operand) :
    verdict? scope op prior used (operand :: rest) =
      ((operand.fault? scope op prior).or ((Lookup.clash? used operand.relationPaths).map .collision)).or
        (verdict? scope op prior (used ++ operand.relationPaths) rest) := by
  cases fault : operand.fault? scope op prior with
  | some e =>
    simp only [verdict?, askedBy, List.takeWhile_cons, fault, Option.isNone_some, Bool.false_eq_true, if_false,
      List.flatMap_nil, Lookup.clash?, Option.map_none, Option.none_or, List.findSome?_cons, Option.some_or]
  | none =>
    simp only [verdict?, askedBy, List.takeWhile_cons, fault, Option.isNone_none, if_true, List.flatMap_cons,
      Lookup.clash?_append, List.findSome?_cons, Option.none_or]
    cases Lookup.clash? used operand.relationPaths with
    | some name => simp only [Option.some_or, Option.map_some]
    | none => simp only [Option.none_or, Option.map_none]

theorem failure?_compileConstant_ne {op : Operator} {value : Json} (name : String) :
    failure? (compileConstant op value) ≠ some (.unknownPreviousStep name) := by
  unfold compileConstant
  split
  · unfold compileText
    split <;> simp [failure?]
  · unfold compileDate
    split
    · split <;> simp [failure?]
    all_goals simp [failure?]
  · unfold compileNumber
    split
    · simp [failure?]
    · split <;> simp [failure?]

theorem failure?_compilePrevious {op : Operator} {prior : List String} {operand : Operand} {name : String}
    (failed : failure? (compilePrevious op prior operand) = some (.unknownPreviousStep name)) : name ∉ prior := by
  simp only [compilePrevious, List.contains_iff_mem] at failed
  split at failed
  · cases family : op.family <;> simp [family, failure?] at failed
  · rename_i absent
    cases failed
    exact absent

/-- Only a name that no result has is reported as unknown. -/
theorem Operand.unknown_of_fault? {scope : Scope} {op : Operator} {prior : List String} {operand : Operand}
    {name : String} (fault : operand.fault? scope op prior = some (.operand (.unknownPreviousStep name))) :
    name ∉ prior := by
  cases kind : operand.kind with
  | constant =>
    simp only [Operand.fault?, kind, Option.map_eq_some_iff, StepError.operand.injEq, exists_eq_right] at fault
    exact absurd fault (failure?_compileConstant_ne name)
  | previousStep =>
    simp only [Operand.fault?, kind, Option.map_eq_some_iff, StepError.operand.injEq, exists_eq_right] at fault
    exact failure?_compilePrevious fault
  | field =>
    simp only [Operand.fault?, kind, Option.map_eq_some_iff, reduceCtorEq, and_false, exists_false] at fault

theorem Operand.fault?_ne_collision {scope : Scope} {op : Operator} {prior : List String} {operand : Operand}
    (name : String) : operand.fault? scope op prior ≠ some (.collision name) := by
  unfold Operand.fault?
  split <;> simp [Option.map_eq_some_iff]

/-- A fault of a step is one of its shape, of one of its operands, or the lack of an operand. -/
theorem Step.fault?_cases {scope : Scope} {prior : List String} {step : Step} {e : StepError}
    (fault : step.fault? scope prior = some e) :
    (∃ shape, e = .shape shape) ∨ e = .operand .missingOperand ∨
      ∃ op, ∃ operand ∈ step.operandsOf op, operand.fault? scope op prior = some e := by
  unfold Step.fault? at fault
  split at fault
  · cases fault
    exact Or.inl ⟨_, rfl⟩
  · rename_i op _
    rcases Option.or_eq_some_iff.mp fault with own | ⟨_, lacking⟩
    · obtain ⟨operand, member, found⟩ := List.exists_of_findSome?_eq_some own
      exact Or.inr (Or.inr ⟨op, operand, member, found⟩)
    · unfold Step.missing? at lacking
      split at lacking
      · cases lacking
        exact Or.inr (Or.inl rfl)
      · cases lacking

theorem Step.unknown_of_fault? {scope : Scope} {prior : List String} {step : Step} {name : String}
    (fault : step.fault? scope prior = some (.operand (.unknownPreviousStep name))) : name ∉ prior := by
  rcases Step.fault?_cases fault with ⟨_, shape⟩ | missing | ⟨op, operand, _, found⟩
  · cases shape
  · cases missing
  · exact Operand.unknown_of_fault? found

/-- A clash is never the fault of a step alone. -/
theorem Step.fault?_ne_collision {scope : Scope} {prior : List String} {step : Step} (name : String) :
    step.fault? scope prior ≠ some (.collision name) := by
  intro fault
  rcases Step.fault?_cases fault with ⟨_, shape⟩ | missing | ⟨op, operand, _, found⟩
  · cases shape
  · cases missing
  · exact Operand.fault?_ne_collision name found

namespace Lookup.Table.Represents

variable {scope : Scope} {table : Table} {used : List (List String)}

/-- An operand fails for what is wrong with it, or else for the first of its paths that clashes. -/
theorem failure?_compile (represents : table.Represents scope used) (op : Operator) (prior : List String)
    (operand : Operand) :
    failure? (operand.compile scope op prior table).1 =
      (operand.fault? scope op prior).or ((clash? used operand.relationPaths).map .collision) := by
  cases kind : operand.kind with
  | constant =>
    simp only [Operand.compile, Operand.fault?, Operand.relationPaths, kind, clash?, Option.map_none, Option.or_none]
    cases compileConstant op operand.value <;> rfl
  | previousStep =>
    simp only [Operand.compile, Operand.fault?, Operand.relationPaths, kind, clash?, Option.map_none, Option.or_none]
    cases compilePrevious op prior operand <;> rfl
  | field =>
    simp only [Operand.compile, ComputedFields.compileField, Operand.fault?, Operand.relationPaths, kind]
    cases found : scope.schema.resolve scope.root (operand.text?.getD "") with
    | error e => rfl
    | ok resolved =>
      have refused := represents.serves.failure?_registerFrom [] none resolved.chain
      rw [(Schema.resolve_names found).1, extensions_nil, ← Table.registerChain] at refused
      simp only [failure?, Option.map_none, Option.none_or, ← refused]
      rcases table.registerChain resolved.chain with ⟨result, grown⟩
      cases result <;> rfl

/-- Whether an operand fails or not, the table has grown by paths that the operand asks for. -/
theorem after_compile (represents : table.Represents scope used) (op : Operator) (prior : List String)
    (operand : Operand) :
    ∃ more ⊆ operand.relationPaths, (operand.compile scope op prior table).2.Represents scope (used ++ more) := by
  have unchanged : ∃ more ⊆ operand.relationPaths, table.Represents scope (used ++ more) :=
    ⟨[], List.nil_subset _, by rwa [List.append_nil]⟩
  cases kind : operand.kind with
  | constant => simpa only [Operand.compile, kind] using unchanged
  | previousStep => simpa only [Operand.compile, kind] using unchanged
  | field =>
    cases found : scope.schema.resolve scope.root (operand.text?.getD "") with
    | error e => simpa only [Operand.compile, ComputedFields.compileField, kind, found] using unchanged
    | ok resolved =>
      obtain ⟨done, result, shorter, _, after⟩ := represents.after_registerChain found
      have named : done.map (·.field.name) <+: relationNames (operand.text?.getD "") := by
        rw [← (Schema.resolve_names found).1]
        exact shorter.map _
      simp only [Operand.compile, kind, compileField_table found]
      refine ⟨_, ?_, after⟩
      intro path member
      have own := mem_tail_inits.mp member
      simp only [Operand.relationPaths, kind]
      exact mem_tail_inits.mpr ⟨own.1, own.2.trans named⟩

/-- The arguments fail for the first operand that does. A missing one is noticed only if nothing is wrong with the one
in front. -/
theorem failure?_compileArgs (represents : table.Represents scope used) (op : Operator) (prior : List String)
    (step : Step) :
    failure? (compileArgs scope op prior table step).1 =
      (verdict? scope op prior used (step.operandsOf op)).or (step.missing? op) := by
  have first := represents.failure?_compile op prior step.operand1
  have operands : ∃ rest, step.operandsOf op = step.operand1 :: rest := by
    unfold Step.operandsOf
    cases op.arity <;> exact ⟨_, rfl⟩
  unfold compileArgs
  rcases run : step.operand1.compile scope op prior table with ⟨result, grown⟩
  cases result with
  | error e =>
    obtain ⟨rest, operands⟩ := operands
    rw [run] at first
    rw [operands, verdict?_cons, ← first]
    rfl
  | ok e =>
    have grew := (represents.compile run).1
    rw [run] at first
    cases arity : op.arity with
    | unary =>
      simp only [Step.operandsOf, Step.missing?, arity, verdict?_cons, verdict?_nil, ← first, failure?, reduceCtorEq,
        false_and, if_false, Option.none_or]
    | binary =>
      cases present : step.operand2 with
      | none =>
        simp only [Step.operandsOf, Step.missing?, arity, present, Option.toList_none, verdict?_cons, verdict?_nil,
          ← first, failure?, Option.isNone_none, and_self, if_true, Option.none_or]
      | some operand =>
        have second := grew.failure?_compile op prior operand
        simp only [Step.operandsOf, Step.missing?, arity, present, Option.toList_some, verdict?_cons, verdict?_nil,
          ← first, ← second, failure?, Option.isNone_some, Bool.false_eq_true, and_false, if_false, Option.none_or,
          Option.or_none]
        rcases operand.compile scope op prior grown with ⟨answer, final⟩
        cases answer <;> rfl

theorem after_compileArgs (represents : table.Represents scope used) (op : Operator) (prior : List String)
    (step : Step) :
    ∃ more ⊆ (step.operandsOf op).flatMap Operand.relationPaths,
      (compileArgs scope op prior table step).2.Represents scope (used ++ more) := by
  obtain ⟨more, asked, after⟩ := represents.after_compile op prior step.operand1
  have own : step.operand1.relationPaths ⊆ (step.operandsOf op).flatMap Operand.relationPaths := by
    unfold Step.operandsOf
    cases op.arity <;> simp
  unfold compileArgs
  rcases run : step.operand1.compile scope op prior table with ⟨result, grown⟩
  rw [run] at after
  cases result with
  | error e => exact ⟨more, List.Subset.trans asked own, after⟩
  | ok e =>
    cases arity : op.arity with
    | unary => exact ⟨more, List.Subset.trans asked own, after⟩
    | binary =>
      cases present : step.operand2 with
      | none => exact ⟨more, List.Subset.trans asked own, after⟩
      | some operand =>
        obtain ⟨others, asked', after'⟩ := after.after_compile op prior operand
        have second : operand.relationPaths ⊆ (step.operandsOf op).flatMap Operand.relationPaths := by
          simp [Step.operandsOf, arity, present]
        have both := List.append_subset.mpr ⟨List.Subset.trans asked own, List.Subset.trans asked' second⟩
        refine ⟨more ++ others, both, ?_⟩
        rw [← List.append_assoc]
        rcases again : operand.compile scope op prior grown with ⟨answer, final⟩
        rw [again] at after'
        cases answer <;> simpa only [again] using after'

/-- A step fails for the first clash among the paths that it comes to ask for, or else for what is wrong with it by
itself. -/
theorem failure?_compileStep (represents : table.Represents scope used) (prior : List String) (step : Step) :
    failure? (step.compile scope prior table).1 =
      ((clash? used (step.asked scope prior)).map .collision).or (step.fault? scope prior) := by
  unfold Step.compile Step.asked Step.fault?
  cases compileShape step with
  | error e => rfl
  | ok op =>
    have failed := represents.failure?_compileArgs op prior step
    rw [verdict?, Option.or_assoc] at failed
    simp only [← failed]
    rcases compileArgs scope op prior table step with ⟨result, grown⟩
    cases result <;> rfl

/-- Whether a step fails or not, the table has grown by paths that its fields lead through. -/
theorem after_compileStep (represents : table.Represents scope used) (prior : List String) (step : Step) :
    ∃ more ⊆ step.relationPaths, (step.compile scope prior table).2.Represents scope (used ++ more) := by
  unfold Step.compile
  cases shaped : compileShape step with
  | error e => exact ⟨[], List.nil_subset _, by rwa [List.append_nil]⟩
  | ok op =>
    obtain ⟨more, asked, after⟩ := represents.after_compileArgs op prior step
    rw [Step.relationPaths, Step.consumed_eq (compileShape_ok_iff.mp shaped).2]
    refine ⟨more, asked, ?_⟩
    rcases run : compileArgs scope op prior table step with ⟨result, grown⟩
    rw [run] at after
    cases result <;> simpa only [run] using after

end Lookup.Table.Represents

end ComputedFields
