import ComputedFields.Proofs.CompiledRun
import Mathlib.Data.List.Forall2

namespace ComputedFields

theorem exists_getElem?_of_forall₂ {α β : Type} {R : α → β → Prop} {xs : List α} {ys : List β}
    (related : List.Forall₂ R xs ys) {i : Nat} {x : α} (atIndex : xs[i]? = some x) :
    ∃ y, ys[i]? = some y ∧ R x y := by
  obtain ⟨bound, rfl⟩ := List.getElem?_eq_some_iff.mp atIndex
  have bound' : i < ys.length := related.length_eq ▸ bound
  exact ⟨ys[i], List.getElem?_eq_getElem bound', related.get bound bound'⟩

/-- The path of a field, a conversion to a date around it taken away. -/
def Expr.reference? : Expr → Option String
  | .field path => some path
  | .toDate (.field path) => some path
  | _ => none

/-- The expression that the step at `index` has for the operand at `position`. -/
def Pipeline.argument? (pipeline : Pipeline) (index position : Nat) : Option Expr :=
  match pipeline.bindings[index]? with
  | some ⟨_, .apply _ args⟩ => args[position]?
  | _ => none

/-- The operand that the step at `index` reads at `position`. -/
def consumedAt? (steps : List Step) (index position : Nat) : Option Operand :=
  steps[index]?.bind (·.consumed[position]?)

theorem reference?_coerceField (op : Operator) (type : FieldType) (path : String) :
    (coerceField op type (.field path)).reference? = some path := by
  rcases coerceField_eq_or op type (.field path) with same | same
  · rw [same, Expr.reference?]
  · rw [same, Expr.reference?]

theorem Lookup.nameOf_dotless {path : List String} (dotless : ∀ name ∈ path, '.' ∉ name.toList) :
    '.' ∉ (Lookup.nameOf path).toList := by
  rw [Lookup.nameOf, String.toList_append, List.mem_append, not_or]
  exact ⟨by decide, Text.not_mem_join (by decide) dotless⟩

/-- A reference takes one dot at most, so it falls into its lookup and its field in one way only. -/
theorem fieldReference_inj {through through' : Option String} {leaf leaf' : String}
    (inName : ∀ name ∈ through, '.' ∉ name.toList) (inLeaf : '.' ∉ leaf.toList) (inLeaf' : '.' ∉ leaf'.toList) :
    fieldReference through leaf = fieldReference through' leaf' ↔ through = through' ∧ leaf = leaf' := by
  have dotted : ∀ name field : String, '.' ∈ (name ++ "." ++ field).toList := by
    intro name field
    rw [String.toList_append, String.toList_append]
    exact List.mem_append_left _ (List.mem_append_right _ (by decide))
  cases through with
  | none =>
    cases through' with
    | none => simp only [fieldReference, true_and]
    | some name' =>
      simp only [fieldReference, reduceCtorEq, false_and, iff_false]
      rintro rfl
      exact inLeaf (dotted name' leaf')
  | some name =>
    cases through' with
    | none =>
      simp only [fieldReference, reduceCtorEq, false_and, iff_false]
      rintro rfl
      exact inLeaf' (dotted name leaf)
    | some name' =>
      simp only [fieldReference, Option.some.injEq]
      exact Text.append_dot_inj (inName name rfl) inLeaf

/-- Among relation paths that are apart, the name of the lookup tells the path. -/
theorem Lookup.Apart.through_inj {used : List (List String)} (apart : Apart used) {path other : List String}
    (inUse : path ≠ [] → path ∈ used) (inUse' : other ≠ [] → other ∈ used) :
    through path = through other ↔ path = other := by
  constructor
  · intro same
    unfold through at same
    split at same <;> split at same
    · simp only [*]
    · cases same
    · cases same
    · rename_i proper proper'
      exact apart path (inUse proper) other (inUse' proper') (nameOf_inj.mp (Option.some.inj same))
  · rintro rfl
    rfl

/-- The name of a lookup has no dot, since no segment of a path has one. So the first dot of a reference ends it. -/
theorem through_dotless (path : String) : ∀ name ∈ Lookup.through (relationNames path), '.' ∉ name.toList := by
  intro name member
  unfold Lookup.through at member
  split at member
  · cases member
  · cases member
    exact Lookup.nameOf_dotless fun _ => relationNames_dotless

/-- As long as the relation paths in use are apart, the reference gives the whole path away. -/
theorem pathReference_inj {used : List (List String)} (apart : Lookup.Apart used) {path other : String}
    (inUse : relationNames path ≠ [] → relationNames path ∈ used)
    (inUse' : relationNames other ≠ [] → relationNames other ∈ used) :
    pathReference path = pathReference other ↔ path = other := by
  rw [pathReference, pathReference,
    fieldReference_inj (through_dotless path) (leafName_dotless path) (leafName_dotless other),
    apart.through_inj inUse inUse', ← path_eq_iff]

/-- The relations in front of a field that a step reads are among the relation paths in use. -/
theorem relations_in_use {steps : List Step} {index : Nat} {step : Step} {operand : Operand} {path : String}
    (atStep : steps[index]? = some step) (consumed : operand ∈ step.consumed) (field : operand.kind = .field)
    (text : operand.text? = some path) (proper : relationNames path ≠ []) :
    relationNames path ∈ steps.flatMap Step.relationPaths := by
  have own : relationNames path ∈ operand.relationPaths := by
    simp only [Operand.relationPaths, field, text, Option.getD_some]
    exact mem_tail_inits.mpr ⟨proper, List.prefix_refl _⟩
  refine List.mem_flatMap.mpr ⟨step, List.mem_of_getElem? atStep, ?_⟩
  exact List.mem_flatMap.mpr ⟨operand, consumed, own⟩

namespace Pipeline.Implements

variable {pipeline : Pipeline} {scope : Scope} {steps : List Step}

/-- The result of a step stands where the step stands, and comes from operands that were admissible there. -/
theorem step_at (implements : pipeline.Implements scope steps) {index : Nat} {step : Step}
    (atStep : steps[index]? = some step) :
    ∃ op args, pipeline.bindings[index]? = some ⟨step.output, .apply op args⟩ ∧
      List.Forall₂ (fun operand e => operand.expr? scope op = some e) step.consumed args ∧
        ∀ operand ∈ step.consumed, operand.Admissible scope op (namesBefore steps index) := by
  obtain ⟨_, atBinding, op, args, spelled, rfl, matched⟩ := exists_getElem?_of_forall₂ implements.bindings atStep
  obtain ⟨other, spelled', _, admissible⟩ := (implements.admissible index step atStep).operator
  cases spelled.unique spelled'
  rw [Step.consumed_eq spelled]
  exact ⟨op, args, atBinding, matched, admissible⟩

/-- A field that a step reads has the reference of its path as its expression, but for a conversion. -/
theorem reference_at (implements : pipeline.Implements scope steps) {index position : Nat} {operand : Operand}
    (consumed : consumedAt? steps index position = some operand) (field : operand.kind = .field) :
    ∃ path, operand.text? = some path ∧
      (relationNames path ≠ [] → relationNames path ∈ steps.flatMap Step.relationPaths) ∧
        (pipeline.argument? index position).bind Expr.reference? = some (pathReference path) := by
  obtain ⟨step, atStep, atPosition⟩ := Option.bind_eq_some_iff.mp consumed
  obtain ⟨op, args, atBinding, matched, admissible⟩ := implements.step_at atStep
  obtain ⟨e, atArgument, compiled⟩ := exists_getElem?_of_forall₂ matched atPosition
  have member := List.mem_of_getElem? atPosition
  have resolves := admissible operand member
  simp only [Operand.Admissible, field] at resolves
  obtain ⟨path, resolved, text, found⟩ := resolves
  simp only [Operand.expr?, field, text, Option.getD_some, found, Option.some.injEq] at compiled
  refine ⟨path, text, relations_in_use atStep member field text, ?_⟩
  simp only [Pipeline.argument?, atBinding, atArgument, ← compiled, Option.bind_some, reference?_coerceField]

end Pipeline.Implements

/-- Fields of a compiled pipeline are never mixed up: two of them have the same reference exactly if the paths were
entered alike. -/
theorem references_eq_iff_paths_eq {scope : Scope} {steps : List Step} {outcome : Outcome} {pipeline : Pipeline}
    (run : scope.tryCompile steps = .ok outcome) (produced : outcome.pipeline = some pipeline)
    {index position index' position' : Nat} {operand operand' : Operand}
    (consumed : consumedAt? steps index position = some operand) (field : operand.kind = .field)
    (consumed' : consumedAt? steps index' position' = some operand') (field' : operand'.kind = .field) :
    ∃ path path' reference reference', operand.text? = some path ∧ operand'.text? = some path' ∧
      (pipeline.argument? index position).bind Expr.reference? = some reference ∧
        (pipeline.argument? index' position').bind Expr.reference? = some reference' ∧
          (reference = reference' ↔ path = path') := by
  have implements := Pipeline.implements_of_tryCompile run produced
  obtain ⟨path, text, inUse, reference⟩ := implements.reference_at consumed field
  obtain ⟨path', text', inUse', reference'⟩ := implements.reference_at consumed' field'
  exact ⟨path, path', _, _, text, text', reference, reference', pathReference_inj implements.apart inUse inUse'⟩

/-- The path `customer.since` is read as a date first and as a text then, which makes no difference to its reference.
The field `customer_friends` of the order is told from the name of a friend, which is read through a lookup that has the
name of this field behind the reserved part. -/
theorem references_of_orders :
    (∃ path path' reference reference', Operand.text? (.field "customer.since") = some path ∧
      Operand.text? (.field "customer.since") = some path' ∧
        (Scope.orders.pipeline.argument? 1 0).bind Expr.reference? = some reference ∧
          (Scope.orders.pipeline.argument? 2 0).bind Expr.reference? = some reference' ∧
            (reference = reference' ↔ path = path')) ∧
    ∃ path path' reference reference', Operand.text? (.field "customer.friends.name") = some path ∧
      Operand.text? (.field "customer_friends") = some path' ∧
        (Scope.orders.pipeline.argument? 0 0).bind Expr.reference? = some reference ∧
          (Scope.orders.pipeline.argument? 3 0).bind Expr.reference? = some reference' ∧
            (reference = reference' ↔ path = path') ∧ reference ≠ reference' := by
  constructor
  · exact references_eq_iff_paths_eq Scope.orders.compiles rfl
      (show consumedAt? Scope.orders.steps 1 0 = some (.field "customer.since") from rfl) rfl
      (show consumedAt? Scope.orders.steps 2 0 = some (.field "customer.since") from rfl) rfl
  · obtain ⟨path, path', reference, reference', text, text', atFirst, atLast, same⟩ :=
      references_eq_iff_paths_eq Scope.orders.compiles rfl
        (show consumedAt? Scope.orders.steps 0 0 = some (.field "customer.friends.name") from rfl) rfl
        (show consumedAt? Scope.orders.steps 3 0 = some (.field "customer_friends") from rfl) rfl
    have different : path ≠ path' := by
      cases text
      cases text'
      decide
    exact ⟨path, path', reference, reference', text, text', atFirst, atLast, same, mt same.mp different⟩

end ComputedFields
