import ComputedFields.Proofs.ClosedPipeline

namespace ComputedFields

/-- The field of the record itself that an operand names: a path without relations. -/
def Operand.recordField? (operand : Operand) : Option String :=
  match operand.kind with
  | .field => operand.text?.filter fun path => (relationNames path).isEmpty
  | _ => none

/-- The fields of the record itself that steps read. -/
def recordFields (steps : List Step) : List String :=
  steps.flatMap fun step => step.consumed.filterMap Operand.recordField?

theorem Operand.recordField?_eq_some_iff {operand : Operand} {name : String} :
    operand.recordField? = some name ↔
      operand.kind = .field ∧ operand.text? = some name ∧ relationNames name = [] := by
  unfold Operand.recordField?
  cases operand.kind with
  | field => simp only [Option.filter_eq_some_iff, List.isEmpty_iff, true_and]
  | constant => simp only [reduceCtorEq, false_and]
  | previousStep => simp only [reduceCtorEq, false_and]

/-- The fields of the record itself that are read, each with a step and an operand that reads it. -/
theorem mem_recordFields_iff {steps : List Step} {name : String} :
    name ∈ recordFields steps ↔ ∃ (index : Nat) (step : Step), steps[index]? = some step ∧
      ∃ operand ∈ step.consumed, operand.kind = .field ∧ operand.text? = some name ∧ relationNames name = [] := by
  simp only [recordFields, List.mem_flatMap, List.mem_filterMap, Operand.recordField?_eq_some_iff,
    List.mem_iff_getElem? (l := steps)]
  constructor
  · rintro ⟨step, ⟨index, atStep⟩, found⟩
    exact ⟨index, step, atStep, found⟩
  · rintro ⟨index, step, atStep, found⟩
    exact ⟨step, ⟨index, atStep⟩, found⟩

/-- A path through relations has a dot in it, one without is nothing but its field. -/
theorem relationNames_eq_nil_iff {path : String} : relationNames path = [] ↔ '.' ∉ path.toList := by
  have joined := Text.join_split '.' path
  rw [← relationNames_append_leafName] at joined
  cases names : relationNames path with
  | nil =>
    rw [names] at joined
    have same : leafName path = path := joined
    simpa only [true_iff, same] using leafName_dotless path
  | cons first rest =>
    obtain ⟨next, more, split⟩ := List.exists_cons_of_ne_nil
      (List.append_ne_nil_of_right_ne_nil rest (List.cons_ne_nil (leafName path) []))
    have cut : first ++ String.singleton '.' ++ Text.join (String.singleton '.') (next :: more) = path := by
      rw [← joined, names, List.cons_append, split]
      rfl
    have inside : '.' ∈ path.toList := by
      rw [← cut, String.toList_append, String.toList_append, String.toList_singleton]
      exact List.mem_append_left _ (List.mem_append_right _ (List.mem_singleton_self '.'))
    simp only [reduceCtorEq, inside, not_true_eq_false]

theorem pathReference_of_dotless {path : String} (dotless : '.' ∉ path.toList) : pathReference path = path := by
  have relations := relationNames_eq_nil_iff.mpr dotless
  have joined := Text.join_split '.' path
  rw [← relationNames_append_leafName, relations] at joined
  rw [pathReference, relations]
  exact joined

theorem dot_mem_pathReference {path : String} (relations : relationNames path ≠ []) :
    '.' ∈ (pathReference path).toList := by
  rw [pathReference, Lookup.through, if_neg relations, fieldReference, String.toList_append, String.toList_append]
  exact List.mem_append_left _ (List.mem_append_right _ (by decide))

/-- A reference without a dot is a path without a dot, as it was entered. -/
theorem pathReference_eq_iff {path name : String} (dotless : '.' ∉ name.toList) :
    pathReference path = name ↔ path = name := by
  constructor
  · rintro rfl
    by_cases relations : relationNames path = []
    · exact (pathReference_of_dotless (relationNames_eq_nil_iff.mp relations)).symm
    · exact absurd (dot_mem_pathReference relations) dotless
  · rintro rfl
    exact pathReference_of_dotless dotless

/-- Which names of a compiled pipeline can meet. A result never has the name of a lookup. A field of the record has
one only if it begins like a lookup, and it has the name of a result only if a step was named so. -/
structure Pipeline.NamesApart (pipeline : Pipeline) (scope : Scope) (steps : List Step) : Prop where
  results : (steps.map (·.output)).Disjoint (pipeline.lookups.map (·.name))
  lookups : ∀ model, scope.schema.model? scope.root = some model →
    (∀ field ∈ model.fields, ¬ Lookup.reserved.toList <+: field.name.toList) →
      (recordFields steps).Disjoint (pipeline.lookups.map (·.name))
  fields : ∀ model, scope.schema.model? scope.root = some model →
    (∀ field ∈ model.fields, field.name ∉ steps.map (·.output)) → (recordFields steps).Disjoint (steps.map (·.output))
  references : ∀ (index position index' position' : Nat) (operand operand' : Operand),
    consumedAt? steps index position = some operand → operand.kind = .field →
    consumedAt? steps index' position' = some operand' → operand'.kind = .previousStep →
      ∃ path name reference, operand.text? = some path ∧ operand'.text? = some name ∧
        (pipeline.argument? index position).map Expr.fieldRefs = some [reference] ∧
          (pipeline.argument? index' position').map Expr.fieldRefs = some [name] ∧ (reference = name ↔ path = name)
  undotted : ∀ binding ∈ pipeline.bindings, ∀ reference ∈ binding.expr.fieldRefs, '.' ∉ reference.toList →
    reference ∈ pipeline.lookups.map (·.name) →
      reference ∈ recordFields steps ∧ Lookup.reserved.toList <+: reference.toList

namespace Pipeline.Implements

variable {pipeline : Pipeline} {scope : Scope} {steps : List Step}

theorem output_allowed (implements : pipeline.Implements scope steps) {name : String}
    (member : name ∈ steps.map (·.output)) : AllowedName name := by
  obtain ⟨step, inside, rfl⟩ := List.mem_map.mp member
  obtain ⟨index, atStep⟩ := List.mem_iff_getElem?.mp inside
  exact (implements.admissible index step atStep).name

theorem reserved_of_lookup (implements : pipeline.Implements scope steps) {name : String}
    (member : name ∈ pipeline.lookups.map (·.name)) : Lookup.reserved.toList <+: name.toList := by
  obtain ⟨lookup, inside, rfl⟩ := List.mem_map.mp member
  obtain ⟨path, named⟩ := implements.name_of_lookup inside
  rw [named, Lookup.nameOf, String.toList_append]
  exact List.prefix_append _ _

/-- A field of the record that a step reads is a field of the root model. -/
theorem recordField_of_root (implements : pipeline.Implements scope steps) {name : String} {model : Model}
    (member : name ∈ recordFields steps) (atRoot : scope.schema.model? scope.root = some model) :
    ∃ field ∈ model.fields, field.name = name := by
  obtain ⟨index, step, atStep, operand, consumed, kind, text, relations⟩ := mem_recordFields_iff.mp member
  obtain ⟨_, _, _, _, admissible⟩ := implements.step_at atStep
  have resolves := admissible operand consumed
  simp only [Operand.Admissible, kind] at resolves
  obtain ⟨path, resolved, text', found⟩ := resolves
  cases text.symm.trans text'
  obtain ⟨_, atRoot', followed, atLeaf⟩ := Schema.resolve_ok_iff.mp found
  cases atRoot.symm.trans atRoot'
  rw [relations] at followed
  have chain : resolved.chain = [] := (Option.some.inj followed).symm
  rw [chain] at atLeaf
  have leaf : leafName name = name := by
    have same := pathReference_of_dotless (relationNames_eq_nil_iff.mp relations)
    rwa [pathReference, relations] at same
  refine ⟨resolved.leaf, List.mem_of_find?_eq_some atLeaf, ?_⟩
  rw [Model.field?_name atLeaf, leaf]

/-- What the expression of an operand reads: the path of a field as its reference, an earlier result by its name. -/
theorem references_at (implements : pipeline.Implements scope steps) {index position : Nat} {operand : Operand}
    (consumed : consumedAt? steps index position = some operand) :
    (pipeline.argument? index position).map Expr.fieldRefs = some operand.references ∧
      ∃ op, operand.Admissible scope op (namesBefore steps index) := by
  obtain ⟨step, atStep, atPosition⟩ := Option.bind_eq_some_iff.mp consumed
  obtain ⟨op, args, atBinding, matched, admissible⟩ := implements.step_at atStep
  obtain ⟨e, atArgument, compiled⟩ := exists_getElem?_of_forall₂ matched atPosition
  refine ⟨?_, op, admissible operand (List.mem_of_getElem? atPosition)⟩
  simp only [Pipeline.argument?, atBinding, atArgument, Option.map_some, Operand.fieldRefs_expr? compiled]

/-- Whatever a result reads, one of the operands of its step has asked for it. -/
theorem operand_of_reference (implements : pipeline.Implements scope steps) {binding : Binding} {reference : String}
    (inside : binding ∈ pipeline.bindings) (member : reference ∈ binding.expr.fieldRefs) :
    ∃ index position operand, consumedAt? steps index position = some operand ∧ reference ∈ operand.references := by
  obtain ⟨index, atBinding⟩ := List.mem_iff_getElem?.mp inside
  obtain ⟨step, atStep, _⟩ := exists_getElem?_of_forall₂ implements.bindings.flip atBinding
  obtain ⟨op, args, atBinding', matched, _⟩ := implements.step_at atStep
  cases atBinding.symm.trans atBinding'
  rw [Expr.fieldRefs, Expr.fieldRefsOfAll_eq] at member
  obtain ⟨e, inArgs, inRefs⟩ := List.mem_flatMap.mp member
  obtain ⟨position, atArgument⟩ := List.mem_iff_getElem?.mp inArgs
  obtain ⟨operand, atOperand, compiled⟩ := exists_getElem?_of_forall₂ matched.flip atArgument
  rw [Operand.fieldRefs_expr? compiled] at inRefs
  exact ⟨index, position, operand, Option.bind_eq_some_iff.mpr ⟨step, atStep, atOperand⟩, inRefs⟩

/-- A reference without a dot that has the name of a lookup is a field of the record. An earlier result cannot be
taken for a lookup. -/
theorem recordField_of_reference (implements : pipeline.Implements scope steps) {index position : Nat}
    {operand : Operand} {reference : String} (consumed : consumedAt? steps index position = some operand)
    (member : reference ∈ operand.references) (dotless : '.' ∉ reference.toList)
    (inLookups : reference ∈ pipeline.lookups.map (·.name)) : reference ∈ recordFields steps := by
  obtain ⟨_, op, admissible⟩ := implements.references_at consumed
  obtain ⟨step, atStep, atPosition⟩ := Option.bind_eq_some_iff.mp consumed
  cases kind : operand.kind with
  | constant => simp only [Operand.references, kind, List.not_mem_nil] at member
  | previousStep =>
    simp only [Operand.Admissible, kind] at admissible
    obtain ⟨name, earlier, text⟩ := admissible
    simp only [Operand.references, kind, text, Option.getD_some, List.mem_singleton] at member
    subst member
    have allowed := implements.output_allowed (List.map_subset _ (List.take_subset _ _) earlier)
    exact absurd (implements.reserved_of_lookup inLookups) allowed.unreserved
  | field =>
    simp only [Operand.Admissible, kind] at admissible
    obtain ⟨path, _, text, _⟩ := admissible
    simp only [Operand.references, kind, text, Option.getD_some, List.mem_singleton] at member
    have same := (pathReference_eq_iff dotless).mp member.symm
    subst same
    exact mem_recordFields_iff.mpr ⟨index, step, atStep, operand, List.mem_of_getElem? atPosition, kind, text,
      relationNames_eq_nil_iff.mpr dotless⟩

theorem namesApart (implements : pipeline.Implements scope steps) : pipeline.NamesApart scope steps where
  results := by
    intro name inResults inLookups
    exact (implements.output_allowed inResults).unreserved (implements.reserved_of_lookup inLookups)
  lookups := by
    intro model atRoot unreserved name inFields inLookups
    obtain ⟨field, member, rfl⟩ := implements.recordField_of_root inFields atRoot
    exact unreserved field member (implements.reserved_of_lookup inLookups)
  fields := by
    intro model atRoot unused name inFields inResults
    obtain ⟨field, member, rfl⟩ := implements.recordField_of_root inFields atRoot
    exact unused field member inResults
  references := by
    intro index position index' position' operand operand' consumed field consumed' previous
    obtain ⟨read, op, admissible⟩ := implements.references_at consumed
    obtain ⟨read', op', admissible'⟩ := implements.references_at consumed'
    simp only [Operand.Admissible, field] at admissible
    simp only [Operand.Admissible, previous] at admissible'
    obtain ⟨path, _, text, _⟩ := admissible
    obtain ⟨name, earlier, text'⟩ := admissible'
    simp only [Operand.references, field, text, Option.getD_some] at read
    simp only [Operand.references, previous, text', Option.getD_some] at read'
    have dotless := (implements.output_allowed (List.map_subset _ (List.take_subset _ _) earlier)).dotless
    exact ⟨path, name, pathReference path, text, text', read, read', pathReference_eq_iff dotless⟩
  undotted := by
    intro binding inside reference member dotless inLookups
    obtain ⟨index, position, operand, consumed, asked⟩ := implements.operand_of_reference inside member
    exact ⟨implements.recordField_of_reference consumed asked dotless inLookups,
      implements.reserved_of_lookup inLookups⟩

end Pipeline.Implements

/-- In a compiled pipeline results and lookups are never named alike. A field of the record and an earlier result are
told apart by their references exactly if they were entered differently, and only a field of the record that begins
like a lookup can be taken for one. -/
theorem compiled_names_apart {scope : Scope} {steps : List Step} {outcome : Outcome} {pipeline : Pipeline}
    (run : scope.tryCompile steps = .ok outcome) (produced : outcome.pipeline = some pipeline) :
    pipeline.NamesApart scope steps :=
  (Pipeline.implements_of_tryCompile run produced).namesApart

theorem names_of_orders_apart :
    Scope.orders.tryCompile Scope.orders.steps = .ok (.compiled "line" Scope.orders.pipeline) ∧
      Scope.orders.pipeline.NamesApart Scope.orders Scope.orders.steps :=
  ⟨Scope.orders.compiles, compiled_names_apart Scope.orders.compiles rfl⟩

/-- Orders with a field that is named like the lookup of their customer. -/
def Scope.discounts : Scope where
  root := "order"
  schema := ⟨[
    { name := "order", fields := [{ name := "amount", type := .number },
      { name := "__calc_lookup_customer", type := .number },
      { name := "customer", type := .relation, relation := some "customer" }] },
    { name := "customer", fields := [{ name := "rate", type := .number }] }]⟩

/-- The first step has the name of the field that it reads. -/
def Scope.discounts.steps : List Step :=
  [{ output := "amount", operator := "$abs", operand1 := .field "amount" },
    { output := "double", operator := "$add", operand1 := .field "amount",
      operand2 := some (.previousStep "amount") },
    { output := "share", operator := "$multiply", operand1 := .field "__calc_lookup_customer",
      operand2 := some (.field "customer.rate") }]

def Scope.discounts.pipeline : Pipeline where
  lookups := [⟨"order", "customer", "customer", "__calc_lookup_customer", false, none⟩]
  bindings := [⟨"amount", .apply .abs [.field "amount"]⟩,
    ⟨"double", .apply .add [.field "amount", .field "amount"]⟩,
    ⟨"share", .apply .multiply [.field "__calc_lookup_customer", .field "__calc_lookup_customer.rate"]⟩]

/-- A step may have the name of a field, and a field that of a lookup. The references are then the same. -/
theorem names_of_discounts_meet :
    Scope.discounts.tryCompile Scope.discounts.steps = .ok (.compiled "share" Scope.discounts.pipeline) ∧
      ¬ (recordFields Scope.discounts.steps).Disjoint (Scope.discounts.steps.map (·.output)) ∧
      ¬ (recordFields Scope.discounts.steps).Disjoint (Scope.discounts.pipeline.lookups.map (·.name)) ∧
      consumedAt? Scope.discounts.steps 1 0 = some (.field "amount") ∧
      consumedAt? Scope.discounts.steps 1 1 = some (.previousStep "amount") ∧
      Scope.discounts.pipeline.argument? 1 0 = Scope.discounts.pipeline.argument? 1 1 := by
  refine ⟨rfl, ?_, ?_, rfl, rfl, rfl⟩
  · exact fun apart => apart (a := "amount") (by decide) (by decide)
  · exact fun apart => apart (a := "__calc_lookup_customer") (by decide) (by decide)

end ComputedFields
