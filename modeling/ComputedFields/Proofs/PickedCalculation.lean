import ComputedFields.Proofs.CompiledRun
import ComputedFields.Proofs.PickedPaths

namespace ComputedFields

theorem nodup_inits {α : Type} (xs : List α) : xs.inits.Nodup := by
  induction xs with
  | nil => exact List.nodup_singleton _
  | cons x rest ih =>
    rw [List.inits_cons, List.nodup_cons]
    refine ⟨?_, ih.map List.cons_injective⟩
    intro member
    obtain ⟨start, _, same⟩ := List.mem_map.mp member
    exact List.cons_ne_nil _ _ same

theorem eraseDups_of_nodup {xs : List (List String)} (once : xs.Nodup) : xs.eraseDups = xs := by
  induction xs using List.reverseRecOn with
  | nil => rfl
  | append_singleton earlier last ih =>
    rw [(List.perm_append_singleton _ _).nodup_iff, List.nodup_cons] at once
    rw [eraseDups_concat, if_neg once.1, ih once.2]

theorem eraseDups_append_self (xs : List (List String)) : (xs ++ xs).eraseDups = xs.eraseDups := by
  have none : xs.removeAll xs = [] := by simp [List.removeAll]
  rw [List.eraseDups_append, none, List.eraseDups_nil, List.append_nil]

/-- The parts of one path never share a name. -/
theorem Lookup.apart_tail_inits (names : List String) : Lookup.Apart names.inits.tail := by
  intro path member other member' same
  obtain ⟨proper, start⟩ := mem_tail_inits.mp member
  obtain ⟨proper', start'⟩ := mem_tail_inits.mp member'
  rcases List.prefix_or_prefix_of_prefix start start' with within | within
  · exact Text.eq_of_join_eq proper within same
  · exact (Text.eq_of_join_eq proper' within same.symm).symm

theorem Operator.spelled_id (op : Operator) : op.Spelled op.id := by
  cases op <;> exact Or.inl rfl

/-- What a picked field becomes as an operand: the operators on dates convert every field they are offered, and to
concatenate converts only dates. -/
def FieldOption.operandOf (option : FieldOption) (op : Operator) : Expr :=
  match op.family with
  | .numeric => .field (pathReference option.path)
  | .date => .toDate (.field (pathReference option.path))
  | .concat =>
    if option.type = .date ∨ option.type = .datetime then .toDate (.field (pathReference option.path))
    else .field (pathReference option.path)

/-- For the fields that an operator accepts, compiling makes no other conversion than the one that is expected here. -/
theorem FieldOption.coerceField_of_accepts {option : FieldOption} {op : Operator}
    (accepted : option.accepts op = true) :
    coerceField op option.type (.field (pathReference option.path)) = option.operandOf op := by
  rw [FieldOption.accepts] at accepted
  rw [FieldOption.operandOf]
  cases family : op.family with
  | numeric =>
    simp only [family] at accepted
    cases type : option.type with
    | number => rfl
    | _ => simp [type, FieldType.isNumeric] at accepted
  | date =>
    simp only [family] at accepted
    cases type : option.type with
    | date => rfl
    | datetime => rfl
    | string => simp only [coerceField, family, reduceCtorEq, if_false]
    | _ => simp [type, FieldType.isTemporal] at accepted
  | concat =>
    cases type : option.type with
    | string => simp only [coerceField, family, if_true, reduceCtorEq, or_self, if_false]
    | _ => simp [coerceField]

/-- The same thing for each operand that the operator takes. -/
def Operator.copies {α : Type} (op : Operator) (a : α) : List α :=
  match op.arity with
  | .unary => [a]
  | .binary => [a, a]

namespace Operator

variable {α β : Type} (op : Operator)

theorem eq_of_mem_copies {a b : α} (member : b ∈ op.copies a) : b = a := by
  unfold copies at member
  split at member
  · exact List.mem_singleton.mp member
  · simpa using member

theorem eraseDups_flatMap_copies (a : α) (f : α → List (List String)) :
    ((op.copies a).flatMap f).eraseDups = (f a).eraseDups := by
  unfold copies
  cases op.arity with
  | unary => rw [List.flatMap_singleton]
  | binary => rw [List.flatMap_cons, List.flatMap_singleton, eraseDups_append_self]

theorem copies_of_forall₂ {f : α → Option β} {a : α} {b : β} (value : f a = some b) {bs : List β}
    (matched : List.Forall₂ (fun a b => f a = some b) (op.copies a) bs) : bs = op.copies b := by
  have only : ∀ b', f a = some b' → b' = b := fun b' value' => Option.some.inj (value'.symm.trans value)
  unfold copies at matched ⊢
  generalize op.arity = arity at matched ⊢
  cases arity with
  | unary =>
    cases matched with
    | cons first rest =>
      cases rest
      rw [only _ first]
  | binary =>
    cases matched with
    | cons first rest =>
      cases rest with
      | cons second rest =>
        cases rest
        rw [only _ first, only _ second]

end Operator

/-- A step that reads one field, for each operand of its operator. -/
structure Step.Picks (step : Step) (op : Operator) (path : String) : Prop where
  named : checkName step.output = .ok ()
  operator : step.operator = op.id
  first : step.operand1 = .field path
  second : op.arity = .binary → step.operand2 = some (.field path)

namespace Step.Picks

variable {step : Step} {op : Operator} {path : String} {scope : Scope} {resolved : ResolvedPath}

theorem spelled (picks : step.Picks op path) : op.Spelled step.operator := by
  rw [picks.operator]
  exact op.spelled_id

theorem operandsOf (picks : step.Picks op path) : step.operandsOf op = op.copies (.field path) := by
  unfold Step.operandsOf Operator.copies
  cases arity : op.arity with
  | unary => simp only [picks.first]
  | binary => simp only [picks.first, picks.second arity, Option.toList_some]

theorem filled (picks : step.Picks op path) (found : scope.schema.resolve scope.root path = .ok resolved) :
    Step.isTrivial [step] = false := by
  have visible := (Schema.resolve_ok_iff.mp found).1
  have populated : step.operand1.isPopulated = true := by
    rw [picks.first]
    simp only [Operand.isPopulated, Operand.field, Operand.text?, visible, Bool.not_false]
  rw [Step.isTrivial, Step.isBlank, populated]
  rfl

/-- A picked field is admissible wherever its step stands, since it refers to no earlier result. -/
theorem admissible (picks : step.Picks op path) (found : scope.schema.resolve scope.root path = .ok resolved)
    (prior : List String) : step.Admissible scope prior := by
  refine ⟨checkName_ok_iff.mp picks.named, op, picks.spelled, ?_, ?_⟩
  · intro binary
    rw [picks.second binary, Option.isSome_some]
  · intro operand member
    rw [picks.operandsOf] at member
    rw [op.eq_of_mem_copies member]
    exact ⟨path, resolved, rfl, found⟩

/-- The same field on both sides of an operator needs the lookups of its path only once. -/
theorem eraseDups_relationPaths (picks : step.Picks op path) :
    step.relationPaths.eraseDups = (relationNames path).inits.tail := by
  have once : (relationNames path).inits.tail.Nodup := (nodup_inits _).sublist (List.tail_sublist _)
  rw [Step.relationPaths, Step.consumed_eq picks.spelled, picks.operandsOf, op.eraseDups_flatMap_copies]
  exact eraseDups_of_nodup once

theorem apart (picks : step.Picks op path) : Lookup.Apart step.relationPaths := by
  intro one member two member'
  rw [← List.mem_eraseDups, picks.eraseDups_relationPaths] at member member'
  exact Lookup.apart_tail_inits _ one member two member'

theorem yields (picks : step.Picks op path) (found : scope.schema.resolve scope.root path = .ok resolved)
    {binding : Binding} (yields : step.Yields scope binding) :
    binding = ⟨step.output, .apply op
      (op.copies (coerceField op resolved.leaf.type (.field (pathReference path))))⟩ := by
  have value : Operand.expr? scope op (.field path) =
      some (coerceField op resolved.leaf.type (.field (pathReference path))) := by
    simp only [Operand.expr?, Operand.field, Operand.text?, Option.getD_some, found]
  obtain ⟨op', args, spelled, rfl, matched⟩ := yields
  obtain rfl := spelled.unique picks.spelled
  rw [picks.operandsOf] at matched
  rw [op'.copies_of_forall₂ value matched]

/-- A path that resolves can be read by any operator. Its relations become lookups one by one. -/
theorem compiles (picks : step.Picks op path) (found : scope.schema.resolve scope.root path = .ok resolved) :
    ∃ lookups, scope.tryCompile [step] = .ok (.compiled step.output ⟨lookups, [⟨step.output, .apply op
        (op.copies (coerceField op resolved.leaf.type (.field (pathReference path))))⟩]⟩) ∧
      lookups.length = resolved.chain.length := by
  have admissible : ∀ (index : Nat) (other : Step), [step][index]? = some other →
      other.Admissible scope ([] ++ namesBefore [step] index) := by
    intro index other atOther
    rw [List.mem_singleton.mp (List.mem_of_getElem? atOther)]
    exact picks.admissible found _
  have used : [step].flatMap Step.relationPaths = step.relationPaths := List.flatMap_singleton ..
  have apart : Lookup.Apart ([] ++ [step].flatMap Step.relationPaths) := by
    rw [List.nil_append, used]
    exact picks.apart
  obtain ⟨bindings, table, run⟩ := Scope.compileFrom_exists (.empty scope) admissible apart 0
  have implements := Pipeline.implements_of_compileFrom run
  have length : table.lookups.length = resolved.chain.length := by
    have lookups := congrArg List.length implements.lookups
    rw [List.length_map, List.length_map, used, picks.eraseDups_relationPaths, List.length_tail, List.length_inits,
      ← (Schema.resolve_names found).1, List.length_map] at lookups
    exact lookups
  cases implements.bindings with
  | cons here none =>
    cases none
    obtain rfl := picks.yields found here
    exact ⟨table.lookups, (Scope.tryCompile_ok_iff (picks.filled found)).mpr ⟨_, table, _, run, rfl, rfl⟩, length⟩

end Step.Picks

/-- Whatever the picker offers an operator can be calculated with: the relations in front of the field become lookups,
and the field is converted as the operator needs it. -/
theorem picked_fields_compile {schema : Schema} (plain : schema.PlainNames) {root : String} {op : Operator} {hops : Nat}
    {option : FieldOption} (offered : option ∈ schema.fieldsFor root op hops) {step : Step}
    (picks : step.Picks op option.path) :
    ∃ lookups, Scope.tryCompile ⟨schema, root⟩ [step] =
        .ok (.compiled step.output ⟨lookups, [⟨step.output, .apply op (op.copies (option.operandOf op))⟩]⟩) ∧
      lookups.length = option.depth := by
  obtain ⟨available, accepted⟩ := List.mem_filter.mp offered
  obtain ⟨resolved, found, _, same⟩ := (Schema.mem_availableFields_iff plain).mp available
  have type : option.type = resolved.leaf.type := by rw [same]; rfl
  have depth : option.depth = resolved.chain.length := by rw [same]; rfl
  rw [← FieldOption.coerceField_of_accepts accepted, type, depth]
  exact picks.compiles found

/-- The city of an office may be taken for a date, since it is a text. -/
def Schema.employees.city : FieldOption := ⟨"office.city", "Office > city", .string, 1⟩

def Schema.employees.cityYear : Step where
  output := "year"
  operator := "$year"
  operand1 := .field "office.city"

/-- The year of a city: one lookup for the office, and the text converted to a date. -/
theorem picked_city_compiles :
    Schema.employees.PlainNames ∧ Schema.employees.city ∈ Schema.employees.fieldsFor "employee" .year 3 ∧
      Schema.employees.cityYear.Picks .year "office.city" ∧
        ∃ lookups, Scope.tryCompile ⟨Schema.employees, "employee"⟩ [Schema.employees.cityYear] =
            .ok (.compiled "year" ⟨lookups, [⟨"year", .apply .year [.toDate (.field "__calc_lookup_office.city")]⟩]⟩) ∧
          lookups.length = 1 := by
  have plain : Schema.employees.PlainNames := by decide
  have offered : Schema.employees.city ∈ Schema.employees.fieldsFor "employee" .year 3 := by decide
  have picks : Schema.employees.cityYear.Picks .year "office.city" := ⟨rfl, rfl, rfl, fun binary => by cases binary⟩
  exact ⟨plain, offered, picks, picked_fields_compile plain offered picks⟩

end ComputedFields
