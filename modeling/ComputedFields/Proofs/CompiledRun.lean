import ComputedFields.Proofs.CompiledStep

namespace ComputedFields

/-- Whether an operand is admissible depends on which results there are, not on their order. -/
theorem Operand.Admissible.mono {scope : Scope} {op : Operator} {prior more : List String} {operand : Operand}
    (admissible : operand.Admissible scope op prior) (known : ∀ name ∈ prior, name ∈ more) :
    operand.Admissible scope op more := by
  cases kind : operand.kind with
  | previousStep =>
    simp only [Operand.Admissible, kind] at admissible ⊢
    obtain ⟨name, member, text⟩ := admissible
    exact ⟨name, known name member, text⟩
  | _ =>
    simp only [Operand.Admissible, kind] at admissible ⊢
    exact admissible

theorem Step.Admissible.mono {scope : Scope} {prior more : List String} {step : Step}
    (admissible : step.Admissible scope prior) (known : ∀ name ∈ prior, name ∈ more) :
    step.Admissible scope more := by
  obtain ⟨allowed, op, spelled, present, operands⟩ := admissible
  exact ⟨allowed, op, spelled, present, fun operand member => (operands operand member).mono known⟩

/-- The names of the results before the step at `index`. -/
def namesBefore (steps : List Step) (index : Nat) : List String := (steps.take index).map (·.output)

namespace Scope

variable {scope : Scope} {index : Nat} {prior : List String} {table final : Lookup.Table}
  {used : List (List String)} {steps : List Step} {bindings : List Binding}

/-- A pass over a step and the rest. The step is compiled first, and the rest sees its name and the table it has
left. -/
theorem compileFrom_cons_ok {step : Step} {rest : List Step} :
    scope.compileFrom index prior table (step :: rest) = .ok (bindings, final) ↔
      ∃ binding grown more, step.compile scope prior table = (.ok binding, grown) ∧
        scope.compileFrom (index + 1) (binding.name :: prior) grown rest = .ok (more, final) ∧
          bindings = binding :: more := by
  constructor
  · intro run
    rw [compileFrom] at run
    split at run
    · cases run
    · rename_i binding grown first
      split at run
      · cases run
      · rename_i more final' later
        cases run
        exact ⟨binding, grown, more, first, later, rfl⟩
  · rintro ⟨binding, grown, more, first, later, rfl⟩
    simp only [compileFrom, first, later]

/-- What a whole pass keeps, from what one step keeps: the table stands for all paths asked for, and each step has its
result. -/
theorem compileFrom_ok (represents : table.Represents scope used)
    (run : scope.compileFrom index prior table steps = .ok (bindings, final)) :
    final.Represents scope (used ++ steps.flatMap Step.relationPaths) ∧
      List.Forall₂ (Step.Yields scope) steps bindings := by
  -- The paths in use grow with the table, so that both are free in the induction.
  induction steps generalizing index prior table used bindings with
  | nil =>
    cases run
    rw [List.flatMap_nil, List.append_nil]
    exact ⟨represents, .nil⟩
  | cons step rest ih =>
    obtain ⟨binding, grown, more, first, later, rfl⟩ := compileFrom_cons_ok.mp run
    obtain ⟨middle, yields⟩ := represents.compileStep first
    obtain ⟨last, others⟩ := ih middle later
    rw [List.flatMap_cons, ← List.append_assoc]
    exact ⟨last, .cons yields others⟩

/-- Steps are checked against the results before them, in whatever order the pass has collected these. -/
theorem admissible_of_compileFrom (named : "" ∉ prior)
    (run : scope.compileFrom index prior table steps = .ok (bindings, final)) (i : Nat) {step : Step}
    (atStep : steps[i]? = some step) : step.Admissible scope (prior ++ namesBefore steps i) := by
  induction steps generalizing index prior table bindings i with
  | nil => cases atStep
  | cons head rest ih =>
    obtain ⟨binding, grown, more, first, later, _⟩ := compileFrom_cons_ok.mp run
    have admissible := Step.admissible_of_compile named first
    cases i with
    | zero =>
      cases atStep
      exact admissible.mono fun name member => List.mem_append_left _ member
    | succ i =>
      obtain ⟨_, _, _, _, _, _, rfl⟩ := Step.compile_ok_iff.mp first
      have named' : "" ∉ head.output :: prior :=
        List.not_mem_cons_of_ne_of_not_mem (Ne.symm admissible.name.nonempty) named
      exact (ih named' later i atStep).mono fun name member => List.perm_middle.mem_iff.mpr member

/-- Admissible steps compile to the end, unless two different relation paths ask for one name. -/
theorem compileFrom_exists (represents : table.Represents scope used)
    (admissible : ∀ (i : Nat) (step : Step), steps[i]? = some step →
      step.Admissible scope (prior ++ namesBefore steps i))
    (apart : Lookup.Apart (used ++ steps.flatMap Step.relationPaths)) (index : Nat) :
    ∃ bindings final, scope.compileFrom index prior table steps = .ok (bindings, final) := by
  induction steps generalizing index prior table used with
  | nil => exact ⟨[], table, rfl⟩
  | cons step rest ih =>
    rw [List.flatMap_cons, ← List.append_assoc] at apart
    have here := admissible 0 step rfl
    simp only [namesBefore, List.take_zero, List.map_nil, List.append_nil] at here
    obtain ⟨binding, grown, first⟩ := represents.compileStep_exists here apart.left
    obtain ⟨_, _, _, _, _, _, same⟩ := Step.compile_ok_iff.mp first
    have later : ∀ (i : Nat) (next : Step), rest[i]? = some next →
        next.Admissible scope ((binding.name :: prior) ++ namesBefore rest i) := by
      intro i next atNext
      rw [same]
      exact (admissible (i + 1) next atNext).mono fun name member => List.perm_middle.mem_iff.mp member
    obtain ⟨more, final, remaining⟩ := ih (represents.compileStep first).1 later apart (index + 1)
    exact ⟨binding :: more, final, compileFrom_cons_ok.mpr ⟨binding, grown, more, first, remaining, rfl⟩⟩

theorem bindings_ne_nil (filled : Step.isTrivial steps = false)
    (run : scope.compileFrom index prior table steps = .ok (bindings, final)) : bindings ≠ [] := by
  cases steps with
  | nil => cases filled
  | cons step rest =>
    obtain ⟨binding, _, more, _, _, rfl⟩ := compileFrom_cons_ok.mp run
    exact List.cons_ne_nil binding more

/-- The check at the end of the pass never fails: the last result is among the results. -/
theorem tryCompile_ok_iff {outcome : Outcome} (filled : Step.isTrivial steps = false) :
    scope.tryCompile steps = .ok outcome ↔ ∃ bindings table last,
      scope.compileFrom 0 [] .empty steps = .ok (bindings, table) ∧ bindings.getLast? = some last ∧
        outcome = .compiled last.name ⟨table.lookups, bindings⟩ := by
  cases run : scope.compileFrom 0 [] .empty steps with
  | error e => simp [tryCompile, filled, run]
  | ok pair =>
    obtain ⟨bindings, table⟩ := pair
    have last := List.getLast?_eq_some_getLast (bindings_ne_nil filled run)
    have contained : Pipeline.contains ⟨table.lookups, bindings⟩ (bindings.getLast _).name = true :=
      List.any_eq_true.mpr ⟨_, List.mem_of_getLast? last, beq_self_eq_true _⟩
    simp only [tryCompile, filled, run, last, contained, if_true, Bool.false_eq_true, if_false]
    constructor
    · intro same
      cases same
      exact ⟨bindings, table, _, rfl, last, rfl⟩
    · rintro ⟨_, _, _, ⟨⟩, found, rfl⟩
      rw [last] at found
      cases found
      rfl

theorem tryCompile_trivial (trivial : Step.isTrivial steps = true) :
    scope.tryCompile steps = .ok .nothing := by
  rw [tryCompile, if_pos trivial]

/-- The pass fails only while it goes through the steps. Once all of them are compiled there is a last result, and with
it the outcome. -/
theorem tryCompile_error_iff {e : CompileError} :
    scope.tryCompile steps = .error e ↔
      Step.isTrivial steps = false ∧ scope.compileFrom 0 [] .empty steps = .error e := by
  cases filled : Step.isTrivial steps with
  | true => simp only [tryCompile_trivial filled, reduceCtorEq, Bool.true_eq_false, false_and]
  | false =>
    cases run : scope.compileFrom 0 [] .empty steps with
    | error wrong => simp only [tryCompile, filled, run, Bool.false_eq_true, if_false, Except.error.injEq, true_and]
    | ok pair =>
      obtain ⟨bindings, table⟩ := pair
      have last := List.getLast?_eq_some_getLast (bindings_ne_nil filled run)
      have accepted := (tryCompile_ok_iff filled).mpr ⟨bindings, table, _, run, last, rfl⟩
      simp only [accepted, reduceCtorEq, and_false]

end Scope

/-- What a pipeline compiled from `steps` is: the lookups of the relation paths in use, and one result per step. -/
structure Pipeline.Implements (pipeline : Pipeline) (scope : Scope) (steps : List Step) : Prop where
  lookups : pipeline.lookups.map some = (steps.flatMap Step.relationPaths).eraseDups.map scope.lookup?
  bindings : List.Forall₂ (Step.Yields scope) steps pipeline.bindings
  admissible : ∀ (i : Nat) (step : Step), steps[i]? = some step → step.Admissible scope (namesBefore steps i)
  apart : Lookup.Apart (steps.flatMap Step.relationPaths)

/-- A pass that starts with nothing and reaches its end has made the pipeline that the steps describe. -/
theorem Pipeline.implements_of_compileFrom {scope : Scope} {steps : List Step} {bindings : List Binding}
    {table : Lookup.Table} (run : scope.compileFrom 0 [] .empty steps = .ok (bindings, table)) :
    Pipeline.Implements ⟨table.lookups, bindings⟩ scope steps := by
  obtain ⟨represents, yields⟩ := Scope.compileFrom_ok (.empty scope) run
  rw [List.nil_append] at represents
  exact
    { lookups := by rw [represents.describes.lookups, represents.serves.paths]
      bindings := yields
      admissible := fun i step atStep => Scope.admissible_of_compileFrom List.not_mem_nil run i atStep
      apart := represents.serves.apart }

/-- A pipeline in an outcome always comes from a full pass, since trivial steps have none. -/
theorem Pipeline.implements_of_tryCompile {scope : Scope} {steps : List Step} {outcome : Outcome}
    {pipeline : Pipeline} (run : scope.tryCompile steps = .ok outcome)
    (produced : outcome.pipeline = some pipeline) : pipeline.Implements scope steps := by
  cases filled : Step.isTrivial steps with
  | true =>
    rw [Scope.tryCompile_trivial filled] at run
    cases run
    cases produced
  | false =>
    obtain ⟨bindings, table, last, compiled, _, rfl⟩ := (Scope.tryCompile_ok_iff filled).mp run
    cases produced
    exact Pipeline.implements_of_compileFrom compiled

/-- A compiled pipeline has the lookups of the relation paths that its fields lead through, each of them once and in
the order of first use. -/
theorem lookups_in_order_of_first_use {scope : Scope} {steps : List Step} {outcome : Outcome} {pipeline : Pipeline}
    (run : scope.tryCompile steps = .ok outcome) (produced : outcome.pipeline = some pipeline) :
    pipeline.lookups.map some = (steps.flatMap Step.relationPaths).eraseDups.map scope.lookup? :=
  (Pipeline.implements_of_tryCompile run produced).lookups

/-- Orders of customers who have friends among the customers. -/
def Scope.orders : Scope where
  root := "order"
  schema := ⟨[
    { name := "order", fields := [{ name := "customer", type := .relation, relation := some "customer" },
      { name := "customer_friends", type := .number }] },
    { name := "customer", fields := [{ name := "name" }, { name := "since" },
      { name := "friends", type := .relation, relation := some "customer", multiple := true }] }]⟩

/-- Steps that lead through the same relations again and again, once in an operand that nothing reads. -/
def Scope.orders.steps : List Step :=
  [{ output := "pair", operator := " concat ", operand1 := .field "customer.friends.name",
      operand2 := some (.field "customer.name") },
    { output := "year", operator := "$year", operand1 := .field "customer.since",
      operand2 := some (.field "customer.friends.friends.name") },
    { output := "line", operator := "$concat", operand1 := .field "customer.since",
      operand2 := some (.previousStep "year") },
    { output := "line", operator := "add", operand1 := .field "customer_friends",
      operand2 := some (.previousStep "line") }]

/-- The second step fails, and the third one, which reads its result, does not fail with it. -/
def Scope.orders.broken : List Step :=
  [{ id := "a", output := "year", operator := "$year", operand1 := .field "customer.since" },
    { id := "b", output := "pair", operator := "$concat", operand1 := .field "customer.name",
      operand2 := some (.field "customer.friend.name") },
    { id := "c", output := "line", operator := "$concat", operand1 := .previousStep "pair",
      operand2 := some (.previousStep "year") }]

def Scope.orders.pipeline : Pipeline where
  lookups := [⟨"order", "customer", "customer", "__calc_lookup_customer", false, none⟩,
    ⟨"customer", "friends", "customer", "__calc_lookup_customer_friends", true, some "__calc_lookup_customer"⟩]
  bindings := [
    ⟨"pair", .apply .concat [.field "__calc_lookup_customer_friends.name", .field "__calc_lookup_customer.name"]⟩,
    ⟨"year", .apply .year [.toDate (.field "__calc_lookup_customer.since")]⟩,
    ⟨"line", .apply .concat [.field "__calc_lookup_customer.since", .toText (.field "year")]⟩,
    ⟨"line", .apply .add [.field "customer_friends", .field "line"]⟩]

theorem Scope.orders.compiles : Scope.orders.tryCompile Scope.orders.steps =
    .ok (.compiled "line" Scope.orders.pipeline) := rfl

/-- The fields need two lookups. A third, for the operand that is not read, is not among them. -/
theorem lookups_of_orders :
    Scope.orders.tryCompile Scope.orders.steps = .ok (.compiled "line" Scope.orders.pipeline) ∧
      Scope.orders.pipeline.lookups.map some = [["customer"], ["customer", "friends"]].map Scope.orders.lookup? :=
  ⟨Scope.orders.compiles, lookups_in_order_of_first_use Scope.orders.compiles rfl⟩

end ComputedFields
