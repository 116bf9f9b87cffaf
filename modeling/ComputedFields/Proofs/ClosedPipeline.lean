import ComputedFields.Proofs.PipelineReferences

namespace ComputedFields

/-- What the result at `index` may read: a field of a lookup, a field of the record itself, or an earlier result. -/
inductive Pipeline.Binds (pipeline : Pipeline) (scope : Scope) (index : Nat) (reference : String) : Prop
  | lookup {lookup leaf model field} : reference.toList.count '.' = 1 → reference = lookup.name ++ "." ++ leaf →
      lookup ∈ pipeline.lookups → scope.schema.model? lookup.foreignModel = some model →
      model.field? leaf = some field → Pipeline.Binds pipeline scope index reference
  | record {model field} : '.' ∉ reference.toList → scope.schema.model? scope.root = some model →
      model.field? reference = some field → Pipeline.Binds pipeline scope index reference
  | result {earlier binding} : '.' ∉ reference.toList → earlier < index →
      pipeline.bindings[earlier]? = some binding → binding.name = reference →
      Pipeline.Binds pipeline scope index reference

/-- Nothing is read that is not there, and no result hides a lookup. -/
structure Pipeline.Closed (pipeline : Pipeline) (scope : Scope) : Prop where
  bound : ∀ (index : Nat) (binding : Binding), pipeline.bindings[index]? = some binding →
    ∀ reference ∈ binding.expr.fieldRefs, pipeline.Binds scope index reference
  unhidden : ∀ binding ∈ pipeline.bindings, ∀ lookup ∈ pipeline.lookups, binding.name ≠ lookup.name

theorem Expr.fieldRefsOfAll_eq (args : List Expr) : Expr.fieldRefsOfAll args = args.flatMap Expr.fieldRefs := by
  induction args with
  | nil => rw [Expr.fieldRefsOfAll, List.flatMap_nil]
  | cons e rest ih => rw [Expr.fieldRefsOfAll, List.flatMap_cons, ih]

/-- The paths that the expression of an operand reads. -/
def Operand.references (operand : Operand) : List String :=
  match operand.kind with
  | .constant => []
  | .previousStep => [operand.text?.getD ""]
  | .field => [pathReference (operand.text?.getD "")]

theorem ConstantForm.fieldRefs {op : Operator} {value : Json} {e : Expr} (form : ConstantForm op value e) :
    e.fieldRefs = [] := by
  cases form <;> simp only [Expr.fieldRefs]

theorem fieldRefs_resultReference (op : Operator) (name : String) : (resultReference op name).fieldRefs = [name] := by
  unfold resultReference
  cases op.family <;> simp only [Expr.fieldRefs]

theorem fieldRefs_coerceField (op : Operator) (type : FieldType) (path : String) :
    (coerceField op type (.field path)).fieldRefs = [path] := by
  rcases coerceField_eq_or op type (.field path) with same | same
  · rw [same, Expr.fieldRefs]
  · rw [same, Expr.fieldRefs, Expr.fieldRefs]

/-- The references in a compiled operand are those that the operand stands for, whatever conversion is around them. -/
theorem Operand.fieldRefs_expr? {scope : Scope} {op : Operator} {operand : Operand} {e : Expr}
    (compiled : operand.expr? scope op = some e) : e.fieldRefs = operand.references := by
  rcases Operand.expr?_eq_some compiled with ⟨constant, form⟩ | ⟨previous, rfl⟩ | ⟨field, type, rfl⟩
  · simp only [Operand.references, constant, form.fieldRefs]
  · simp only [Operand.references, previous, fieldRefs_resultReference]
  · simp only [Operand.references, field, fieldRefs_coerceField]

/-- A reference through a lookup has the one dot between the lookup and the field. -/
theorem count_dot_reference {name leaf : String} (inName : '.' ∉ name.toList) (inLeaf : '.' ∉ leaf.toList) :
    (name ++ "." ++ leaf).toList.count '.' = 1 := by
  rw [String.toList_append, String.toList_append, List.count_append, List.count_append,
    List.count_eq_zero_of_not_mem inName, List.count_eq_zero_of_not_mem inLeaf]
  rfl

theorem AllowedName.dotless {name : String} (allowed : AllowedName name) : '.' ∉ name.toList :=
  fun member => absurd (allowed.plain '.' member) (by decide)

/-- A result is never taken for a lookup, because no allowed name begins with the reserved text. -/
theorem AllowedName.ne_nameOf {name : String} (allowed : AllowedName name) (path : List String) :
    name ≠ Lookup.nameOf path := by
  rintro rfl
  refine allowed.unreserved ?_
  rw [Lookup.nameOf, String.toList_append]
  exact List.prefix_append _ _

theorem Scope.lookup?_name {scope : Scope} {path : List String} {lookup : Lookup}
    (found : scope.lookup? path = some lookup) : lookup.name = Lookup.nameOf path := by
  obtain ⟨hop, _, rfl⟩ := Option.map_eq_some_iff.mp found
  rfl

theorem exists_step_of_namesBefore {steps : List Step} {index : Nat} {name : String}
    (member : name ∈ namesBefore steps index) :
    ∃ earlier < index, ∃ step, steps[earlier]? = some step ∧ step.output = name := by
  obtain ⟨step, taken, same⟩ := List.mem_map.mp member
  obtain ⟨earlier, atStep⟩ := List.mem_iff_getElem?.mp taken
  rw [List.getElem?_take] at atStep
  split at atStep
  · rename_i before
    exact ⟨earlier, before, step, atStep, same⟩
  · cases atStep

namespace Pipeline.Implements

variable {pipeline : Pipeline} {scope : Scope} {steps : List Step}

theorem mem_lookups (implements : pipeline.Implements scope steps) {path : List String} {lookup : Lookup}
    (inUse : path ∈ steps.flatMap Step.relationPaths) (found : scope.lookup? path = some lookup) :
    lookup ∈ pipeline.lookups := by
  have listed : scope.lookup? path ∈ pipeline.lookups.map some := by
    rw [implements.lookups]
    exact List.mem_map_of_mem (List.mem_eraseDups.mpr inUse)
  rw [found] at listed
  obtain ⟨_, member, same⟩ := List.mem_map.mp listed
  cases same
  exact member

theorem name_of_lookup (implements : pipeline.Implements scope steps) {lookup : Lookup}
    (member : lookup ∈ pipeline.lookups) : ∃ path, lookup.name = Lookup.nameOf path := by
  have listed : some lookup ∈ pipeline.lookups.map some := List.mem_map_of_mem member
  rw [implements.lookups] at listed
  obtain ⟨path, _, found⟩ := List.mem_map.mp listed
  exact ⟨path, Scope.lookup?_name found⟩

/-- The reference of a path that resolves is bound, by the record itself or by the lookup of its relations. -/
theorem binds_path (implements : pipeline.Implements scope steps) {path : String} {resolved : ResolvedPath}
    (found : scope.schema.resolve scope.root path = .ok resolved)
    (inUse : relationNames path ≠ [] → relationNames path ∈ steps.flatMap Step.relationPaths) (index : Nat) :
    pipeline.Binds scope index (pathReference path) := by
  obtain ⟨_, atRoot, followed, atLeaf⟩ := Schema.resolve_ok_iff.mp found
  by_cases relations : relationNames path = []
  · rw [relations] at followed
    cases chain : resolved.chain with
    | cons => rw [chain] at followed; cases followed
    | nil =>
      rw [chain] at atLeaf
      have reference : pathReference path = leafName path := by
        rw [pathReference, relations]
        rfl
      rw [reference]
      exact .record (leafName_dotless path) atRoot atLeaf
  · obtain ⟨lookup, isLookup, name, atTarget⟩ := Scope.lookup?_of_followed atRoot followed relations
    have reference : pathReference path = lookup.name ++ "." ++ leafName path := by
      rw [pathReference, Lookup.through, if_neg relations, name]
      rfl
    have inName : '.' ∉ lookup.name.toList := by
      rw [name]
      exact Lookup.nameOf_dotless fun _ => relationNames_dotless
    refine .lookup ?_ reference (implements.mem_lookups (inUse relations) isLookup) atTarget atLeaf
    rw [reference]
    exact count_dot_reference inName (leafName_dotless path)

theorem binds_earlier (implements : pipeline.Implements scope steps) {index : Nat} {name : String}
    (member : name ∈ namesBefore steps index) : pipeline.Binds scope index name := by
  obtain ⟨earlier, before, step, atStep, rfl⟩ := exists_step_of_namesBefore member
  obtain ⟨op, args, atBinding, _⟩ := implements.step_at atStep
  exact .result (implements.admissible earlier step atStep).name.dotless before atBinding rfl

/-- Whatever an operand refers to is bound when its step is reached: by a lookup, by the record itself or by an earlier
result. -/
theorem binds_operand (implements : pipeline.Implements scope steps) {index : Nat} {step : Step} {op : Operator}
    {operand : Operand} (atStep : steps[index]? = some step) (consumed : operand ∈ step.consumed)
    (admissible : operand.Admissible scope op (namesBefore steps index)) :
    ∀ reference ∈ operand.references, pipeline.Binds scope index reference := by
  intro reference member
  cases kind : operand.kind with
  | constant =>
    simp only [Operand.references, kind, List.not_mem_nil] at member
  | previousStep =>
    simp only [Operand.Admissible, kind] at admissible
    obtain ⟨name, known, text⟩ := admissible
    simp only [Operand.references, kind, text, Option.getD_some, List.mem_singleton] at member
    cases member
    exact implements.binds_earlier known
  | field =>
    simp only [Operand.Admissible, kind] at admissible
    obtain ⟨path, resolved, text, found⟩ := admissible
    simp only [Operand.references, kind, text, Option.getD_some, List.mem_singleton] at member
    cases member
    exact implements.binds_path found (relations_in_use atStep consumed kind text) index

end Pipeline.Implements

/-- Compiled pipelines are closed: each result reads fields of the record, fields of lookups that are there, and
results before it. -/
theorem compiled_pipeline_closed {scope : Scope} {steps : List Step} {outcome : Outcome} {pipeline : Pipeline}
    (run : scope.tryCompile steps = .ok outcome) (produced : outcome.pipeline = some pipeline) :
    pipeline.Closed scope := by
  have implements := Pipeline.implements_of_tryCompile run produced
  constructor
  · intro index binding atBinding reference member
    obtain ⟨step, atStep, _⟩ := exists_getElem?_of_forall₂ implements.bindings.flip atBinding
    obtain ⟨op, args, atBinding', matched, admissible⟩ := implements.step_at atStep
    cases atBinding.symm.trans atBinding'
    rw [Expr.fieldRefs, Expr.fieldRefsOfAll_eq] at member
    obtain ⟨e, inArgs, inRefs⟩ := List.mem_flatMap.mp member
    obtain ⟨position, atArgument⟩ := List.mem_iff_getElem?.mp inArgs
    obtain ⟨operand, atOperand, compiled⟩ := exists_getElem?_of_forall₂ matched.flip atArgument
    have consumed := List.mem_of_getElem? atOperand
    rw [Operand.fieldRefs_expr? compiled] at inRefs
    exact implements.binds_operand atStep consumed (admissible operand consumed) reference inRefs
  · intro binding inBindings lookup inLookups
    obtain ⟨index, atBinding⟩ := List.mem_iff_getElem?.mp inBindings
    obtain ⟨step, atStep, _, _, _, rfl, _⟩ := exists_getElem?_of_forall₂ implements.bindings.flip atBinding
    obtain ⟨path, named⟩ := implements.name_of_lookup inLookups
    rw [named]
    exact (implements.admissible index step atStep).name.ne_nameOf path

theorem orders_closed :
    Scope.orders.tryCompile Scope.orders.steps = .ok (.compiled "line" Scope.orders.pipeline) ∧
      Scope.orders.pipeline.Closed Scope.orders :=
  ⟨Scope.orders.compiles, compiled_pipeline_closed Scope.orders.compiles rfl⟩

end ComputedFields
