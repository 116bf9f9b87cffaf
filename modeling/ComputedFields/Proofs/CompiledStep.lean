import ComputedFields.Proofs.CompiledOperand

namespace ComputedFields

/-- The operands that an operator reads of a step. A unary one takes no notice of the second. -/
def Step.operandsOf (step : Step) (op : Operator) : List Operand :=
  match op.arity with
  | .unary => [step.operand1]
  | .binary => step.operand1 :: step.operand2.toList

/-- The operands that a step's own operator reads, if its text names one. -/
def Step.consumed (step : Step) : List Operand :=
  match Operator.ofText step.operator with
  | .ok op => step.operandsOf op
  | .error _ => []

theorem Step.consumed_eq {step : Step} {op : Operator} (spelled : op.Spelled step.operator) :
    step.consumed = step.operandsOf op := by
  rw [Step.consumed, Operator.ofText_ok_iff.mpr spelled]

def Step.relationPaths (step : Step) : List (List String) := step.consumed.flatMap Operand.relationPaths

/-- A step that can be compiled by itself, after results of the given names. -/
structure Step.Admissible (scope : Scope) (prior : List String) (step : Step) : Prop where
  name : AllowedName step.output
  operator : ∃ op : Operator, op.Spelled step.operator ∧ (op.arity = .binary → step.operand2.isSome = true) ∧
    ∀ operand ∈ step.operandsOf op, operand.Admissible scope op prior

/-- The result that a step comes to, whatever the other steps are. -/
def Step.Yields (scope : Scope) (step : Step) (binding : Binding) : Prop :=
  ∃ (op : Operator) (args : List Expr), op.Spelled step.operator ∧ binding = ⟨step.output, .apply op args⟩ ∧
    List.Forall₂ (fun operand e => operand.expr? scope op = some e) (step.operandsOf op) args

/-- Operands compiled one after the other, each with the table that the one before has left. -/
inductive CompiledArgs (scope : Scope) (op : Operator) (prior : List String) :
    Lookup.Table → List Operand → List Expr → Lookup.Table → Prop
  | nil {table} : CompiledArgs scope op prior table [] [] table
  | cons {table middle grown operand rest e args} : operand.compile scope op prior table = (.ok e, middle) →
      CompiledArgs scope op prior middle rest args grown →
      CompiledArgs scope op prior table (operand :: rest) (e :: args) grown

namespace CompiledArgs

variable {scope : Scope} {op : Operator} {prior : List String} {table grown : Lookup.Table}
  {operands : List Operand} {args : List Expr}

/-- Operands compiled one after the other bring all of their relation paths into use, in this order. -/
theorem represents {used : List (List String)} (compiled : CompiledArgs scope op prior table operands args grown)
    (represents : table.Represents scope used) :
    grown.Represents scope (used ++ operands.flatMap Operand.relationPaths) ∧
      List.Forall₂ (fun operand e => operand.expr? scope op = some e) operands args := by
  induction compiled generalizing used with
  | nil =>
    rw [List.flatMap_nil, List.append_nil]
    exact ⟨represents, .nil⟩
  | cons run _ ih =>
    obtain ⟨middle, first⟩ := represents.compile run
    obtain ⟨final, others⟩ := ih middle
    rw [List.flatMap_cons, ← List.append_assoc]
    exact ⟨final, .cons first others⟩

theorem admissible (compiled : CompiledArgs scope op prior table operands args grown) (named : "" ∉ prior) :
    ∀ operand ∈ operands, operand.Admissible scope op prior := by
  induction compiled with
  | nil => exact fun _ member => absurd member List.not_mem_nil
  | cons run _ ih =>
    intro operand member
    rcases List.mem_cons.mp member with rfl | later
    · exact Operand.admissible_of_compile named run
    · exact ih operand later

/-- Admissible operands are compiled to the last one as long as their paths are apart. -/
theorem exists_of_admissible {used : List (List String)} (represents : table.Represents scope used)
    (admissible : ∀ operand ∈ operands, operand.Admissible scope op prior)
    (apart : Lookup.Apart (used ++ operands.flatMap Operand.relationPaths)) :
    ∃ args grown, CompiledArgs scope op prior table operands args grown := by
  induction operands generalizing table used with
  | nil => exact ⟨[], table, .nil⟩
  | cons operand rest ih =>
    rw [List.flatMap_cons, ← List.append_assoc] at apart
    obtain ⟨e, middle, run⟩ := represents.compile_exists (admissible operand (List.mem_cons_self ..)) apart.left
    obtain ⟨args, grown, later⟩ := ih (represents.compile run).1
      (fun other member => admissible other (List.mem_cons_of_mem _ member)) apart
    exact ⟨e :: args, grown, .cons run later⟩

end CompiledArgs

section

variable {scope : Scope} {op : Operator} {prior : List String} {table grown : Lookup.Table} {step : Step}

/-- Compiled arguments come from the operands that the operator takes, and a binary operator was given its second
one. -/
theorem compileArgs_ok {args : List Expr} (run : compileArgs scope op prior table step = (.ok args, grown)) :
    (op.arity = .binary → step.operand2.isSome = true) ∧
      CompiledArgs scope op prior table (step.operandsOf op) args grown := by
  unfold compileArgs at run
  split at run
  · cases run
  · rename_i middle first
    split at run
    · rename_i unary
      cases run
      simp only [Step.operandsOf, unary]
      exact ⟨fun binary => absurd binary (by decide), .cons first .nil⟩
    · rename_i binary
      split at run
      · cases run
      · rename_i operand present
        split at run
        · cases run
        · rename_i second
          cases run
          simp only [Step.operandsOf, binary, present]
          exact ⟨fun _ => rfl, .cons first (.cons second .nil)⟩

theorem compileArgs_of_compiled {args : List Expr} (present : op.arity = .binary → step.operand2.isSome = true)
    (compiled : CompiledArgs scope op prior table (step.operandsOf op) args grown) :
    compileArgs scope op prior table step = (.ok args, grown) := by
  unfold Step.operandsOf at compiled
  cases arity : op.arity with
  | unary =>
    simp only [arity] at compiled
    cases compiled with
    | cons first rest =>
      cases rest
      simp only [compileArgs, first, arity]
  | binary =>
    obtain ⟨operand, second⟩ := Option.isSome_iff_exists.mp (present arity)
    simp only [arity, second, Option.toList_some] at compiled
    cases compiled with
    | cons first rest =>
      cases rest with
      | cons next rest =>
        cases rest
        simp only [compileArgs, first, arity, second, next]

/-- The shape of a step is right exactly if its name is allowed and its operator is spelled. The operands are not looked
at. -/
theorem compileShape_ok_iff : compileShape step = .ok op ↔ AllowedName step.output ∧ op.Spelled step.operator := by
  rw [← checkName_ok_iff, ← readOperator_ok_iff, compileShape]
  cases checkName step.output with
  | error => simp only [reduceCtorEq, false_and]
  | ok => simp only [true_and]

/-- Everything that a successful step has gone through. -/
theorem Step.compile_ok_iff {binding : Binding} :
    step.compile scope prior table = (.ok binding, grown) ↔
      ∃ op args, AllowedName step.output ∧ op.Spelled step.operator ∧
        (op.arity = .binary → step.operand2.isSome = true) ∧
          CompiledArgs scope op prior table (step.operandsOf op) args grown ∧
            binding = ⟨step.output, .apply op args⟩ := by
  constructor
  · intro run
    unfold Step.compile at run
    split at run
    · cases run
    · rename_i op shaped
      split at run
      · cases run
      · rename_i args grown' compiled
        cases run
        obtain ⟨allowed, spelled⟩ := compileShape_ok_iff.mp shaped
        obtain ⟨present, inOrder⟩ := compileArgs_ok compiled
        exact ⟨op, args, allowed, spelled, present, inOrder, rfl⟩
  · rintro ⟨op, args, allowed, spelled, present, compiled, rfl⟩
    simp only [Step.compile, compileShape_ok_iff.mpr ⟨allowed, spelled⟩, compileArgs_of_compiled present compiled]

/-- One step adds its relation paths to those in use and comes to its result. A pass does nothing but repeat this. -/
theorem Lookup.Table.Represents.compileStep {used : List (List String)} (represents : table.Represents scope used)
    {binding : Binding} (run : step.compile scope prior table = (.ok binding, grown)) :
    grown.Represents scope (used ++ step.relationPaths) ∧ step.Yields scope binding := by
  obtain ⟨op, args, _, spelled, _, compiled, rfl⟩ := Step.compile_ok_iff.mp run
  rw [Step.relationPaths, Step.consumed_eq spelled]
  obtain ⟨final, matched⟩ := compiled.represents represents
  exact ⟨final, op, args, spelled, rfl, matched⟩

theorem Step.admissible_of_compile (named : "" ∉ prior) {binding : Binding}
    (run : step.compile scope prior table = (.ok binding, grown)) : step.Admissible scope prior := by
  obtain ⟨op, args, allowed, spelled, present, compiled, _⟩ := Step.compile_ok_iff.mp run
  exact ⟨allowed, op, spelled, present, compiled.admissible named⟩

/-- An admissible step is compiled unless one of its lookups would get the name that another path has. -/
theorem Lookup.Table.Represents.compileStep_exists {used : List (List String)}
    (represents : table.Represents scope used) (admissible : step.Admissible scope prior)
    (apart : Lookup.Apart (used ++ step.relationPaths)) :
    ∃ binding grown, step.compile scope prior table = (.ok binding, grown) := by
  obtain ⟨allowed, op, spelled, present, operands⟩ := admissible
  rw [Step.relationPaths, Step.consumed_eq spelled] at apart
  obtain ⟨args, grown, compiled⟩ := CompiledArgs.exists_of_admissible represents operands apart
  exact ⟨_, grown, Step.compile_ok_iff.mpr ⟨op, args, allowed, spelled, present, compiled, rfl⟩⟩

end

end ComputedFields
