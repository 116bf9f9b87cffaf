import ComputedFields.Proofs.CompiledRun
import Mathlib.Data.List.Forall2

namespace ComputedFields

/-- The model has been given further fields behind its own. -/
def Model.GrowsTo (model grown : Model) : Prop := ∃ more, grown = { model with fields := model.fields ++ more }

/-- Models have been given further fields, and further models have been added behind them. What is new may well have a
name that was there before. -/
def Schema.GrowsTo (schema grown : Schema) : Prop :=
  ∃ kept more, grown.models = kept ++ more ∧ List.Forall₂ Model.GrowsTo schema.models kept

namespace Model.GrowsTo

variable {model grown : Model}

theorem name (grows : model.GrowsTo grown) : grown.name = model.name := by
  obtain ⟨more, rfl⟩ := grows
  rfl

theorem field? (grows : model.GrowsTo grown) {name : String} {field : Field}
    (found : model.field? name = some field) : grown.field? name = some field := by
  obtain ⟨more, rfl⟩ := grows
  rw [Model.field?] at found ⊢
  rw [List.find?_append, found, Option.some_or]

end Model.GrowsTo

/-- One hop before and after the schema has grown. -/
structure Hop.GrowsTo (hop grown : Hop) : Prop where
  model : hop.model.GrowsTo grown.model
  field : grown.field = hop.field
  target : hop.target.GrowsTo grown.target

/-- Models only grow where they stand, so the first of a name is still the first. -/
theorem find?_of_grown {models kept : List Model} (grows : List.Forall₂ Model.GrowsTo models kept) {name : String}
    {model : Model} (found : models.find? (·.name == name) = some model) :
    ∃ grown, kept.find? (·.name == name) = some grown ∧ model.GrowsTo grown := by
  induction grows with
  | nil => cases found
  | @cons first next _ _ here _ ih =>
    rw [List.find?_cons] at found ⊢
    rw [here.name]
    by_cases same : first.name = name
    · rw [beq_iff_eq.mpr same] at found ⊢
      cases found
      exact ⟨next, rfl, here⟩
    · rw [beq_eq_false_iff_ne.mpr same] at found ⊢
      exact ih found

theorem reached_of_grown {model model' : Model} (grows : model.GrowsTo model') {chain chain' : List Hop}
    (hops : List.Forall₂ Hop.GrowsTo chain chain') : (reached model chain).GrowsTo (reached model' chain') := by
  induction hops generalizing model model' with
  | nil => exact grows
  | cons here _ ih =>
    rw [reached_cons, reached_cons]
    exact ih here.target

namespace Schema.GrowsTo

variable {schema grown : Schema}

/-- The first model of a name stays the first. -/
theorem model? (grows : schema.GrowsTo grown) {name : String} {model : Model}
    (found : schema.model? name = some model) : ∃ model', grown.model? name = some model' ∧ model.GrowsTo model' := by
  obtain ⟨kept, more, models, each⟩ := grows
  obtain ⟨model', found', grew⟩ := find?_of_grown each found
  refine ⟨model', ?_, grew⟩
  rw [Schema.model?, models, List.find?_append, found', Option.some_or]

theorem hop (grows : schema.GrowsTo grown) {model model' : Model} (grew : model.GrowsTo model') {name : String}
    {hop : Hop} (run : schema.hop model name = .ok hop) :
    ∃ hop', grown.hop model' name = .ok hop' ∧ hop.GrowsTo hop' := by
  obtain ⟨rfl, found, target, atTarget⟩ := hop_ok_iff.mp run
  obtain ⟨next, atNext, grewNext⟩ := grows.model? atTarget
  refine ⟨⟨model', hop.field, next⟩, hop_ok_iff.mpr ?_, grew, rfl, grewNext⟩
  rw [grewNext.name]
  exact ⟨rfl, grew.field? found, target, atNext⟩

theorem follow? (grows : schema.GrowsTo grown) {model model' : Model} (grew : model.GrowsTo model')
    {names : List String} {chain : List Hop} (followed : schema.follow? model names = some chain) :
    ∃ chain', grown.follow? model' names = some chain' ∧ List.Forall₂ Hop.GrowsTo chain chain' := by
  induction names generalizing model model' chain with
  | nil =>
    cases followed
    exact ⟨[], rfl, .nil⟩
  | cons name rest ih =>
    obtain ⟨hop, more, first, later, rfl⟩ := follow?_cons_eq_some followed
    obtain ⟨hop', first', grewHop⟩ := grows.hop grew first
    obtain ⟨more', later', grewMore⟩ := ih grewHop.target later
    refine ⟨hop' :: more', ?_, .cons grewHop grewMore⟩
    rw [follow?_cons first', later', Option.map_some]

/-- A path that resolves goes on to resolve, along the same relations and to the same field. -/
theorem resolve (grows : schema.GrowsTo grown) {root path : String} {resolved : ResolvedPath}
    (found : schema.resolve root path = .ok resolved) :
    ∃ resolved', grown.resolve root path = .ok resolved' ∧
      List.Forall₂ Hop.GrowsTo resolved.chain resolved'.chain ∧ resolved'.leaf = resolved.leaf := by
  obtain ⟨visible, atRoot, followed, atLeaf⟩ := resolve_ok_iff.mp found
  obtain ⟨root', atRoot', grewRoot⟩ := grows.model? atRoot
  obtain ⟨chain', followed', grewChain⟩ := grows.follow? grewRoot followed
  have atLeaf' := (reached_of_grown grewRoot grewChain).field? atLeaf
  exact ⟨⟨root', chain', resolved.leaf⟩, resolve_ok_iff.mpr ⟨visible, atRoot', followed', atLeaf'⟩, grewChain, rfl⟩

end Schema.GrowsTo

namespace Lookup.Table

/-- A table takes no more of a hop than its field and the names of its models. -/
theorem registerHop_of_grown {hop hop' : Hop} (grows : hop.GrowsTo hop') (table : Table) (path : List String)
    (parent : Option String) : table.registerHop path parent hop' = table.registerHop path parent hop := by
  rw [registerHop, registerHop, grows.field, grows.model.name, grows.target.name]

/-- Only names go into a table, so a chain of grown hops is registered as the chain was. -/
theorem registerFrom_of_grown {chain chain' : List Hop} (grows : List.Forall₂ Hop.GrowsTo chain chain') (table : Table)
    (before : List String) (parent : Option String) :
    table.registerFrom before parent chain' = table.registerFrom before parent chain := by
  induction grows generalizing table before parent with
  | nil => rfl
  | cons here _ ih => simp only [registerFrom, here.field, registerHop_of_grown here, ih]

end Lookup.Table

section

variable {schema grown : Schema} {root : String} {op : Operator} {prior : List String}
  {table final : Lookup.Table}

theorem compileField_of_grown (grows : schema.GrowsTo grown) {operand : Operand} {e : Expr}
    (run : compileField ⟨schema, root⟩ op table operand = (.ok e, final)) :
    compileField ⟨grown, root⟩ op table operand = (.ok e, final) := by
  obtain ⟨resolved, result, found, registered, rfl⟩ := compileField_ok run
  obtain ⟨resolved', found', grewChain, leaf⟩ := grows.resolve found
  have registered' : table.registerChain resolved'.chain = (.ok result, final) := by
    rw [Lookup.Table.registerChain, Lookup.Table.registerFrom_of_grown grewChain]
    exact registered
  simp only [compileField, found', registered', leaf]

/-- An operand that was compiled is compiled to the same expression, and leaves the same table. -/
theorem Operand.compile_of_grown (grows : schema.GrowsTo grown) {operand : Operand} {e : Expr}
    (run : operand.compile ⟨schema, root⟩ op prior table = (.ok e, final)) :
    operand.compile ⟨grown, root⟩ op prior table = (.ok e, final) := by
  cases kind : operand.kind with
  | field =>
    simp only [Operand.compile, kind] at run ⊢
    exact compileField_of_grown grows run
  | _ =>
    simp only [Operand.compile, kind] at run ⊢
    exact run

theorem CompiledArgs.of_grown (grows : schema.GrowsTo grown) {operands : List Operand} {args : List Expr}
    (compiled : CompiledArgs ⟨schema, root⟩ op prior table operands args final) :
    CompiledArgs ⟨grown, root⟩ op prior table operands args final := by
  induction compiled with
  | nil => exact .nil
  | cons run _ ih => exact .cons (Operand.compile_of_grown grows run) ih

theorem Step.compile_of_grown (grows : schema.GrowsTo grown) {step : Step} {binding : Binding}
    (run : step.compile ⟨schema, root⟩ prior table = (.ok binding, final)) :
    step.compile ⟨grown, root⟩ prior table = (.ok binding, final) := by
  obtain ⟨op, args, allowed, spelled, present, compiled, same⟩ := Step.compile_ok_iff.mp run
  exact Step.compile_ok_iff.mpr ⟨op, args, allowed, spelled, present, compiled.of_grown grows, same⟩

theorem Scope.compileFrom_of_grown (grows : schema.GrowsTo grown) {index : Nat} {steps : List Step}
    {bindings : List Binding} (run : Scope.compileFrom ⟨schema, root⟩ index prior table steps = .ok (bindings, final)) :
    Scope.compileFrom ⟨grown, root⟩ index prior table steps = .ok (bindings, final) := by
  induction steps generalizing index prior table bindings with
  | nil => exact run
  | cons step rest ih =>
    obtain ⟨binding, middle, more, first, later, same⟩ := Scope.compileFrom_cons_ok.mp run
    exact Scope.compileFrom_cons_ok.mpr ⟨binding, middle, more, Step.compile_of_grown grows first, ih later, same⟩

end

/-- A calculation that compiles goes on to compile when the schema grows, and to exactly what it did. -/
theorem tryCompile_of_grown_schema {schema grown : Schema} (grows : schema.GrowsTo grown) {root : String}
    {steps : List Step} {outcome : Outcome} (run : Scope.tryCompile ⟨schema, root⟩ steps = .ok outcome) :
    Scope.tryCompile ⟨grown, root⟩ steps = .ok outcome := by
  cases filled : Step.isTrivial steps with
  | true =>
    rw [Scope.tryCompile_trivial filled] at run ⊢
    exact run
  | false =>
    obtain ⟨bindings, table, last, compiled, atLast, same⟩ := (Scope.tryCompile_ok_iff filled).mp run
    exact (Scope.tryCompile_ok_iff filled).mpr
      ⟨bindings, table, last, Scope.compileFrom_of_grown grows compiled, atLast, same⟩

/-- Every model has got a second field `customer` and a second field `name`, and there is a second model `order`. -/
def Scope.orders.grown : Schema where
  models := Scope.orders.schema.models.map (fun model =>
      { model with fields := model.fields ++ [{ name := "customer" }, { name := "name", type := .number }] }) ++
    [{ name := "order" }]

/-- The line of an order stays what it was, although the new fields and the new model have names that were in use. -/
theorem orders_of_grown_schema :
    Scope.orders.schema.GrowsTo Scope.orders.grown ∧
      Scope.tryCompile ⟨Scope.orders.grown, "order"⟩ Scope.orders.steps =
        .ok (.compiled "line" Scope.orders.pipeline) := by
  have grows : Scope.orders.schema.GrowsTo Scope.orders.grown :=
    ⟨_, _, rfl, List.forall₂_map_right_iff.mpr (List.forall₂_same.mpr fun _ _ => ⟨_, rfl⟩)⟩
  exact ⟨grows, tryCompile_of_grown_schema grows Scope.orders.compiles⟩

end ComputedFields
