import ComputedFields.Proofs.Admission
import ComputedFields.Proofs.DescribedTable

namespace ComputedFields

/-- The relation paths that an operand asks for: every part of its path in front of the field, the shortest first. -/
def Operand.relationPaths (operand : Operand) : List (List String) :=
  match operand.kind with
  | .field => (relationNames (operand.text?.getD "")).inits.tail
  | _ => []

/-- An operand that can be compiled by itself, after results of the given names. -/
def Operand.Admissible (scope : Scope) (op : Operator) (prior : List String) (operand : Operand) : Prop :=
  match operand.kind with
  | .constant => op.family.Admits operand.value
  | .previousStep => ∃ name ∈ prior, operand.text? = some name
  | .field => ∃ path resolved, operand.text? = some path ∧ scope.schema.resolve scope.root path = .ok resolved

/-- How an expression refers to the field at the end of a path. -/
def pathReference (path : String) : String := fieldReference (Lookup.through (relationNames path)) (leafName path)

/-- How an expression refers to an earlier result. -/
def resultReference (op : Operator) (name : String) : Expr :=
  match op.family with
  | .concat => .toText (.field name)
  | .date => .toDate (.field name)
  | .numeric => .field name

/-- The expression of an operand. It depends neither on the lookups so far nor on the other steps. -/
def Operand.expr? (scope : Scope) (op : Operator) (operand : Operand) : Option Expr :=
  match operand.kind with
  | .constant => (compileConstant op operand.value).toOption
  | .previousStep => some (resultReference op (operand.text?.getD ""))
  | .field =>
    match scope.schema.resolve scope.root (operand.text?.getD "") with
    | .error _ => none
    | .ok resolved =>
      some (coerceField op resolved.leaf.type (.field (pathReference (operand.text?.getD ""))))

/-- The forms of a compiled constant. A number of milliseconds is kept as it was entered, and one to calculate with is
brought into its canonical form. -/
inductive ConstantForm (op : Operator) : Json → Expr → Prop
  | number {value : Json} {x : Binary64} {n : Number} : op.family = .numeric → Number.canonical? x = some n →
      ConstantForm op value (.literal (.number n))
  | milliseconds {n : Number} : op.family = .date → ConstantForm op (.num n) (.toDate (.literal (.number n)))
  | date {s : String} : op.family = .date → ConstantForm op (.str s) (.toDate (.literal (.text s)))
  | text {value : Json} {s : String} : op.family = .concat → ConstantForm op value (.literal (.text s))

/-- What a compiled constant looks like, family by family. Later modules split on this and do not open the compilation
again. -/
theorem compileConstant_form {op : Operator} {value : Json} {e : Expr} (run : compileConstant op value = .ok e) :
    ConstantForm op value e := by
  cases family : op.family with
  | numeric =>
    simp only [compileConstant, family] at run
    unfold compileNumber at run
    split at run
    · cases run
    · split at run
      · rename_i number
        obtain ⟨x, _, canonical⟩ := Option.bind_eq_some_iff.mp number
        cases run
        exact .number family canonical
      · cases run
  | date =>
    simp only [compileConstant, family] at run
    unfold compileDate at run
    split at run
    · split at run
      · cases run
      · cases run
        exact .date family
    · cases run
      exact .milliseconds family
    · cases run
    · cases run
  | concat =>
    simp only [compileConstant, family] at run
    unfold compileText at run
    split at run <;> cases run <;> exact .text family

theorem coerceField_eq_or (op : Operator) (type : FieldType) (reference : Expr) :
    coerceField op type reference = reference ∨ coerceField op type reference = .toDate reference := by
  unfold coerceField
  split
  · exact Or.inr rfl
  · exact Or.inr rfl
  · split
    · exact Or.inl rfl
    · exact Or.inr rfl
  · exact Or.inl rfl

/-- Where the expression of an operand comes from, according to the kind. -/
theorem Operand.expr?_eq_some {scope : Scope} {op : Operator} {operand : Operand} {e : Expr}
    (compiled : operand.expr? scope op = some e) :
    operand.kind = .constant ∧ ConstantForm op operand.value e ∨
      operand.kind = .previousStep ∧ e = resultReference op (operand.text?.getD "") ∨
        operand.kind = .field ∧ ∃ type, e = coerceField op type (.field (pathReference (operand.text?.getD ""))) := by
  cases kind : operand.kind with
  | constant =>
    simp only [Operand.expr?, kind] at compiled
    cases run : compileConstant op operand.value with
    | error =>
      rw [run] at compiled
      cases compiled
    | ok e' =>
      rw [run] at compiled
      cases compiled
      exact Or.inl ⟨rfl, compileConstant_form run⟩
  | previousStep =>
    simp only [Operand.expr?, kind, Option.some.injEq] at compiled
    exact Or.inr (Or.inl ⟨rfl, compiled.symm⟩)
  | field =>
    simp only [Operand.expr?, kind] at compiled
    split at compiled
    · cases compiled
    · cases compiled
      exact Or.inr (Or.inr ⟨rfl, _, rfl⟩)

/-- The table that a pass has built up after asking for the relation paths `used`. -/
structure Lookup.Table.Represents (table : Table) (scope : Scope) (used : List (List String)) : Prop where
  serves : table.Serves used
  describes : table.Describes scope

theorem Lookup.Table.Represents.empty (scope : Scope) : Table.empty.Represents scope [] :=
  ⟨.empty, .empty scope⟩

theorem Lookup.extensions_nil (names : List String) : Lookup.extensions [] names = names.inits.tail :=
  List.map_id _

theorem compilePrevious_ok_iff {op : Operator} {prior : List String} {operand : Operand} {e : Expr} :
    compilePrevious op prior operand = .ok e ↔
      operand.text?.getD "" ∈ prior ∧ e = resultReference op (operand.text?.getD "") := by
  simp only [compilePrevious, List.contains_iff_mem, resultReference]
  split
  · rename_i member
    simp only [member, true_and]
    cases op.family <;> simp only [Except.ok.injEq, eq_comm]
  · rename_i absent
    simp only [absent, false_and, reduceCtorEq]

/-- All that a compiled field rests on: a path that resolves, a chain that is registered, and the reference made from
both. -/
theorem compileField_ok {scope : Scope} {op : Operator} {table grown : Lookup.Table} {operand : Operand} {e : Expr}
    (run : compileField scope op table operand = (.ok e, grown)) :
    ∃ resolved result, scope.schema.resolve scope.root (operand.text?.getD "") = .ok resolved ∧
      table.registerChain resolved.chain = (.ok result, grown) ∧
        e = coerceField op resolved.leaf.type (.field (fieldReference result resolved.leaf.name)) := by
  unfold compileField at run
  split at run
  · cases run
  · rename_i resolved found
    split at run
    · cases run
    · rename_i result grown' registered
      cases run
      exact ⟨resolved, result, found, registered, rfl⟩

/-- A resolved path gives its names back: those of the chain are its relations, that of the leaf is its last one. -/
theorem Schema.resolve_names {schema : Schema} {root path : String} {resolved : ResolvedPath}
    (found : schema.resolve root path = .ok resolved) :
    resolved.chain.map (·.field.name) = relationNames path ∧ resolved.leaf.name = leafName path := by
  obtain ⟨_, _, followed, atLeaf⟩ := Schema.resolve_ok_iff.mp found
  exact ⟨Schema.follow?_names followed, Model.field?_name atLeaf⟩

namespace Lookup.Table.Represents

variable {scope : Scope} {op : Operator} {prior : List String} {operand : Operand} {table grown : Table}
  {used : List (List String)} {e : Expr}

/-- A registered chain brings the relations of its path into use, one hop longer each time, and is answered with the
name of the longest. -/
theorem registerChain (represents : table.Represents scope used) {path : String} {resolved : ResolvedPath}
    (found : scope.schema.resolve scope.root path = .ok resolved) {result : Option String}
    (run : table.registerChain resolved.chain = (.ok result, grown)) :
    grown.Represents scope (used ++ (relationNames path).inits.tail) ∧ result = through (relationNames path) := by
  obtain ⟨_, atRoot, followed, _⟩ := Schema.resolve_ok_iff.mp found
  have names := (Schema.resolve_names found).1
  have served := represents.serves.registerFrom run
  rw [names, extensions_nil] at served
  refine ⟨⟨served, represents.describes.registerChain atRoot followed run⟩, ?_⟩
  have last := @registerFrom_result table grown [] result resolved.chain run
  rwa [names, List.nil_append] at last

/-- Whether a chain is refused or not, the table has taken the paths of a first part of it. -/
theorem after_registerChain (represents : table.Represents scope used) {path : String} {resolved : ResolvedPath}
    (found : scope.schema.resolve scope.root path = .ok resolved) :
    ∃ done result, done <+: resolved.chain ∧
      table.registerChain done = (.ok result, (table.registerChain resolved.chain).2) ∧
        (table.registerChain resolved.chain).2.Represents scope (used ++ (done.map (·.field.name)).inits.tail) := by
  obtain ⟨_, atRoot, followed, _⟩ := Schema.resolve_ok_iff.mp found
  obtain ⟨done, result, shorter, registered⟩ := table.registerFrom_registered [] none resolved.chain
  have served := represents.serves.registerFrom registered
  rw [extensions_nil] at served
  have described := represents.describes.registerChain atRoot (Schema.follow?_of_prefix followed shorter) registered
  exact ⟨done, result, shorter, registered, served, described⟩

/-- The table after a field is the table after its chain, also where the chain is refused. -/
theorem compileField_table {operand : Operand} {resolved : ResolvedPath}
    (found : scope.schema.resolve scope.root (operand.text?.getD "") = .ok resolved) (op : Operator) (table : Table) :
    (ComputedFields.compileField scope op table operand).2 = (table.registerChain resolved.chain).2 := by
  simp only [ComputedFields.compileField, found]
  rcases table.registerChain resolved.chain with ⟨answer, grown⟩
  cases answer <;> rfl

theorem compileField (represents : table.Represents scope used) (field : operand.kind = .field)
    (run : compileField scope op table operand = (.ok e, grown)) :
    grown.Represents scope (used ++ operand.relationPaths) ∧ operand.expr? scope op = some e := by
  obtain ⟨resolved, result, found, registered, rfl⟩ := compileField_ok run
  obtain ⟨grew, rfl⟩ := represents.registerChain found registered
  rw [(Schema.resolve_names found).2]
  simp only [Operand.relationPaths, Operand.expr?, field, found]
  exact ⟨grew, rfl⟩

/-- A compiled operand adds its own relation paths to those in use, and its expression owes nothing to the table. -/
theorem compile (represents : table.Represents scope used)
    (run : operand.compile scope op prior table = (.ok e, grown)) :
    grown.Represents scope (used ++ operand.relationPaths) ∧ operand.expr? scope op = some e := by
  cases kind : operand.kind with
  | constant =>
    simp only [Operand.compile, kind] at run
    obtain ⟨compiled, rfl⟩ := Prod.mk.inj run
    rw [mapError_eq_ok_iff] at compiled
    simp only [Operand.relationPaths, Operand.expr?, kind, compiled, List.append_nil]
    exact ⟨represents, rfl⟩
  | previousStep =>
    simp only [Operand.compile, kind] at run
    obtain ⟨compiled, rfl⟩ := Prod.mk.inj run
    rw [mapError_eq_ok_iff, compilePrevious_ok_iff] at compiled
    obtain ⟨_, rfl⟩ := compiled
    simp only [Operand.relationPaths, Operand.expr?, kind, List.append_nil]
    exact ⟨represents, trivial⟩
  | field =>
    simp only [Operand.compile, kind] at run
    exact represents.compileField kind run

end Lookup.Table.Represents

/-- What was compiled was admissible. No result has the empty name, so an operand without a text names none. -/
theorem Operand.admissible_of_compile {scope : Scope} {op : Operator} {prior : List String} {operand : Operand}
    {table grown : Lookup.Table} {e : Expr} (named : "" ∉ prior)
    (run : operand.compile scope op prior table = (.ok e, grown)) : operand.Admissible scope op prior := by
  cases kind : operand.kind with
  | constant =>
    simp only [Operand.compile, Operand.Admissible, kind] at run ⊢
    exact compileConstant_ok_iff.mp ⟨e, mapError_eq_ok_iff.mp (Prod.mk.inj run).1⟩
  | previousStep =>
    simp only [Operand.compile, Operand.Admissible, kind] at run ⊢
    obtain ⟨member, _⟩ := compilePrevious_ok_iff.mp (mapError_eq_ok_iff.mp (Prod.mk.inj run).1)
    cases text : operand.text? with
    | none =>
      rw [text] at member
      exact absurd member named
    | some name =>
      rw [text] at member
      exact ⟨name, member, rfl⟩
  | field =>
    simp only [Operand.compile, Operand.Admissible, kind] at run ⊢
    obtain ⟨resolved, _, found, _⟩ := compileField_ok run
    cases text : operand.text? with
    | none =>
      rw [text] at found
      cases found
    | some path =>
      rw [text] at found
      exact ⟨path, resolved, rfl, found⟩

/-- An admissible operand is refused only for a name that a lookup of another path has. -/
theorem Lookup.Table.Represents.compile_exists {scope : Scope} {op : Operator} {prior : List String}
    {operand : Operand} {table : Table} {used : List (List String)} (represents : table.Represents scope used)
    (admissible : operand.Admissible scope op prior) (apart : Apart (used ++ operand.relationPaths)) :
    ∃ e grown, operand.compile scope op prior table = (.ok e, grown) := by
  cases kind : operand.kind with
  | constant =>
    simp only [Operand.Admissible, kind] at admissible
    obtain ⟨e, compiled⟩ := compileConstant_ok_iff.mpr admissible
    simp only [Operand.compile, kind, compiled]
    exact ⟨e, table, rfl⟩
  | previousStep =>
    simp only [Operand.Admissible, kind] at admissible
    obtain ⟨name, member, text⟩ := admissible
    have known : operand.text?.getD "" ∈ prior := by rwa [text]
    have compiled : compilePrevious op prior operand = .ok (resultReference op (operand.text?.getD "")) :=
      compilePrevious_ok_iff.mpr ⟨known, rfl⟩
    simp only [Operand.compile, kind, compiled]
    exact ⟨_, table, rfl⟩
  | field =>
    simp only [Operand.Admissible, kind] at admissible
    obtain ⟨path, resolved, text, found⟩ := admissible
    simp only [Operand.relationPaths, kind, text, Option.getD_some] at apart
    rw [← (Schema.resolve_names found).1, ← extensions_nil] at apart
    obtain ⟨result, grown, registered⟩ := represents.serves.registerFrom_exists [] none resolved.chain apart
    have chained : table.registerChain resolved.chain = (.ok result, grown) := registered
    simp only [Operand.compile, kind, ComputedFields.compileField, text, Option.getD_some, found, chained]
    exact ⟨_, grown, rfl⟩

end ComputedFields
