import ComputedFields.Pipeline.Emit
import ComputedFields.Proofs.PipelineReferences

namespace ComputedFields

/-- Where a key stands among the members of an object. -/
def Json.position (members : List (String × Json)) (key : String) : Nat := (members.map Prod.fst).idxOf key

/-- Setting a key that is there leaves the keys and their order alone. A new key goes to the end. -/
theorem Json.keys_put {α : Type} (key : String) (value : α) (members : List (String × α)) :
    (Json.put key value members).map Prod.fst =
      if key ∈ members.map Prod.fst then members.map Prod.fst else members.map Prod.fst ++ [key] := by
  induction members with
  | nil => rfl
  | cons member rest ih =>
    obtain ⟨k, v⟩ := member
    rw [Json.put]
    by_cases same : k = key
    · simp [same]
    · have other : key ≠ k := fun equal => same equal.symm
      simp only [same, if_false, List.map_cons, ih, List.mem_cons, other, false_or]
      split <;> rfl

theorem lookup_cons_eq_if {α : Type} (name key : String) (value : α) (rest : List (String × α)) :
    List.lookup name ((key, value) :: rest) = if name = key then some value else rest.lookup name := by
  by_cases same : name = key
  · simp [same]
  · simp [List.lookup_cons, same, beq_eq_false_iff_ne.mpr same]

theorem Json.lookup_put {α : Type} (key name : String) (value : α) (members : List (String × α)) :
    (Json.put key value members).lookup name = if name = key then some value else members.lookup name := by
  induction members with
  | nil => rw [Json.put, lookup_cons_eq_if]
  | cons member rest ih =>
    obtain ⟨k, v⟩ := member
    rw [Json.put]
    by_cases same : k = key
    · rw [if_pos same, lookup_cons_eq_if, lookup_cons_eq_if, same]
      split <;> rfl
    · rw [if_neg same, lookup_cons_eq_if, lookup_cons_eq_if, ih]
      by_cases asked : name = k
      · have other : name ≠ key := fun equal => same (asked.symm.trans equal)
        rw [if_pos asked, if_neg other, if_pos asked]
      · rw [if_neg asked, if_neg asked]

theorem emitBindings_concat (bindings : List Binding) (binding : Binding) :
    emitBindings (bindings ++ [binding]) = Json.put binding.name binding.expr.emit (emitBindings bindings) := by
  simp only [emitBindings, List.foldl_append, List.foldl_cons, List.foldl_nil]

/-- The members of the emitted object are the names of the results in the order of first use. -/
theorem keys_emitBindings (bindings : List Binding) :
    (emitBindings bindings).map Prod.fst = (bindings.map (·.name)).eraseDups := by
  induction bindings using List.reverseRecOn with
  | nil => rfl
  | append_singleton earlier binding ih =>
    rw [emitBindings_concat, Json.keys_put, ih, List.map_append, List.map_singleton, eraseDups_concat]
    simp only [List.mem_eraseDups]

/-- Under a name stands the last expression bound to it. -/
theorem lookup_emitBindings (pipeline : Pipeline) (name : String) :
    (emitBindings pipeline.bindings).lookup name = (pipeline.get? name).map Expr.emit := by
  obtain ⟨lookups, bindings⟩ := pipeline
  rw [Pipeline.get?]
  induction bindings using List.reverseRecOn with
  | nil => rfl
  | append_singleton earlier binding ih =>
    rw [emitBindings_concat, Json.lookup_put, ih, List.reverse_append, List.reverse_singleton, List.singleton_append,
      List.find?_cons]
    by_cases same : name = binding.name
    · simp [same]
    · simp [same, beq_eq_false_iff_ne.mpr (Ne.symm same)]

theorem idxOf_concat (names : List String) (last name : String) :
    (names ++ [last]).idxOf name =
      if name ∈ names then names.idxOf name else if name = last then names.length else names.length + 1 := by
  by_cases member : name ∈ names
  · rw [List.idxOf_append_of_mem member, if_pos member]
  · rw [List.idxOf_append_of_notMem member, if_neg member]
    by_cases same : name = last
    · rw [if_pos same, List.idxOf_cons_eq _ same.symm, Nat.add_zero]
    · rw [if_neg same, List.idxOf_cons_ne _ (Ne.symm same), List.idxOf_nil]

/-- Leaving out repetitions changes no order between first uses. -/
theorem idxOf_eraseDups_lt_iff (names : List String) (first second : String) :
    names.eraseDups.idxOf first < names.eraseDups.idxOf second ↔ names.idxOf first < names.idxOf second := by
  induction names using List.reverseRecOn with
  | nil => rfl
  | append_singleton earlier last ih =>
    have within : ∀ name, name ∈ earlier ↔ earlier.idxOf name < earlier.length :=
      fun _ => List.idxOf_lt_length_iff.symm
    have within' : ∀ name, name ∈ earlier ↔ earlier.eraseDups.idxOf name < earlier.eraseDups.length :=
      fun _ => List.mem_eraseDups.symm.trans List.idxOf_lt_length_iff.symm
    rw [eraseDups_concat]
    -- In both lists a name that is there keeps its place, and any other one stands behind all of them.
    split <;> grind [idxOf_concat]

/-- The pipeline as far as the step at `index` can see it. -/
def Pipeline.before (pipeline : Pipeline) (index : Nat) : Pipeline :=
  { pipeline with bindings := pipeline.bindings.take index }

/-- A result that is not bound again keeps the expression it had. -/
theorem Pipeline.get?_before {pipeline : Pipeline} {index : Nat} {name : String}
    (last : name ∉ (pipeline.bindings.drop index).map (·.name)) :
    (pipeline.before index).get? name = pipeline.get? name := by
  have none : (pipeline.bindings.drop index).reverse.find? (·.name == name) = none := by
    refine List.find?_eq_none.mpr fun binding member named => last ?_
    rw [← beq_iff_eq.mp named]
    exact List.mem_map_of_mem (List.mem_reverse.mp member)
  have cut : pipeline.bindings = pipeline.bindings.take index ++ pipeline.bindings.drop index :=
    (List.take_append_drop index _).symm
  rw [Pipeline.get?, Pipeline.get?, cut, List.reverse_append, List.find?_append, none, Option.none_or]
  rfl

theorem Pipeline.contains_iff {pipeline : Pipeline} {name : String} :
    pipeline.contains name = true ↔ name ∈ pipeline.bindings.map (·.name) := by
  simp only [Pipeline.contains, List.any_eq_true, beq_iff_eq, List.mem_map]

/-- The expression of a name is that of the last binding with this name. -/
theorem Pipeline.get?_eq_some_iff {pipeline : Pipeline} {name : String} {e : Expr} :
    pipeline.get? name = some e ↔
      ∃ earlier later, pipeline.bindings = earlier ++ ⟨name, e⟩ :: later ∧ name ∉ later.map (·.name) := by
  rw [Pipeline.get?, Option.map_eq_some_iff]
  simp only [List.find?_eq_some_iff_append, beq_iff_eq]
  constructor
  · rintro ⟨⟨_, _⟩, ⟨rfl, later, earlier, split, others⟩, rfl⟩
    refine ⟨earlier.reverse, later.reverse, ?_, ?_⟩
    · rw [← List.reverse_reverse pipeline.bindings, split]
      simp
    · intro again
      obtain ⟨binding, member, same⟩ := List.mem_map.mp again
      simpa [same] using others binding (List.mem_reverse.mp member)
  · rintro ⟨earlier, later, split, last⟩
    refine ⟨⟨name, e⟩, ⟨rfl, later.reverse, earlier.reverse, ?_, ?_⟩, rfl⟩
    · rw [split]
      simp
    · intro binding member
      have other : binding.name ≠ name := by
        rintro rfl
        exact last (List.mem_map_of_mem (List.mem_reverse.mp member))
      simpa using other

theorem Pipeline.get?_isSome_iff {pipeline : Pipeline} {name : String} :
    (pipeline.get? name).isSome = true ↔ name ∈ pipeline.bindings.map (·.name) := by
  simp only [Pipeline.get?, Option.isSome_map, List.find?_isSome, List.mem_reverse, beq_iff_eq, List.mem_map]

theorem Pipeline.get?_isSome {pipeline : Pipeline} {name : String}
    (member : name ∈ pipeline.bindings.map (·.name)) : ∃ e, pipeline.get? name = some e :=
  Option.isSome_iff_exists.mp (Pipeline.get?_isSome_iff.mpr member)

/-- The emitted object and the queries on a pipeline agree, however often its names are bound: the object has the names
in the order of first use, and under each the expression that the pipeline has for it, which is the last one. -/
theorem emitted_members_answer_queries (pipeline : Pipeline) :
    ∃ members, pipeline.emit.get? "addFields" = some (.obj members) ∧
      members.map Prod.fst = (pipeline.bindings.map (·.name)).eraseDups ∧
      ∀ name, (name ∈ members.map Prod.fst ↔ pipeline.contains name = true) ∧
        (pipeline.contains name = true ↔ (pipeline.get? name).isSome = true) ∧
        members.lookup name = (pipeline.get? name).map Expr.emit ∧
        ∀ e, pipeline.get? name = some e ↔
          ∃ earlier later, pipeline.bindings = earlier ++ ⟨name, e⟩ :: later ∧ name ∉ later.map (·.name) := by
  have keys := keys_emitBindings pipeline.bindings
  refine ⟨emitBindings pipeline.bindings, rfl, keys, fun name => ⟨?_, ?_, ?_, ?_⟩⟩
  · rw [keys, List.mem_eraseDups, Pipeline.contains_iff]
  · rw [Pipeline.contains_iff, Pipeline.get?_isSome_iff]
  · exact lookup_emitBindings pipeline name
  · exact fun e => Pipeline.get?_eq_some_iff

theorem names_of_yields {scope : Scope} {steps : List Step} {bindings : List Binding}
    (yields : List.Forall₂ (Step.Yields scope) steps bindings) : bindings.map (·.name) = steps.map (·.output) := by
  induction yields with
  | nil => rfl
  | cons yielded _ ih =>
    obtain ⟨_, _, _, rfl, _⟩ := yielded
    rw [List.map_cons, List.map_cons, ih]

/-- What comes up among the first names comes up in front of what does not. -/
theorem idxOf_lt_of_mem_take {names : List String} {index : Nat} {first second : String}
    (early : first ∈ names.take index) (late : second ∉ names.take index) :
    names.idxOf first < names.idxOf second := by
  rw [← List.take_append_drop index names, List.idxOf_append_of_mem early, List.idxOf_append_of_notMem late]
  have bound := List.idxOf_lt_length_iff.mpr early
  omega

/-- What becomes of a result that a step reads. In the emitted object its name stands in front of the name of the
step exactly if it was bound first, and so whenever the step is the first one of its name. Its expression is the last
one of its name, and so the one that the step reads unless the name is bound again from there on. -/
theorem emitted_order_of_results {scope : Scope} {steps : List Step} {outcome : Outcome} {pipeline : Pipeline}
    (run : scope.tryCompile steps = .ok outcome) (produced : outcome.pipeline = some pipeline) {index : Nat}
    {step : Step} {operand : Operand} (atStep : steps[index]? = some step) (consumed : operand ∈ step.consumed)
    (previous : operand.kind = .previousStep) :
    ∃ name members, operand.text? = some name ∧ pipeline.emit.get? "addFields" = some (.obj members) ∧
      name ∈ members.map Prod.fst ∧ step.output ∈ members.map Prod.fst ∧
      (Json.position members name < Json.position members step.output ↔
        (steps.map (·.output)).idxOf name < (steps.map (·.output)).idxOf step.output) ∧
      (step.output ∉ namesBefore steps index → Json.position members name < Json.position members step.output) ∧
      (∃ e, pipeline.get? name = some e ∧ members.lookup name = some e.emit) ∧
      (name ∉ (steps.drop index).map (·.output) →
        ∃ e, (pipeline.before index).get? name = some e ∧ members.lookup name = some e.emit) := by
  have implements := Pipeline.implements_of_tryCompile run produced
  obtain ⟨_, _, _, _, admissible⟩ := implements.step_at atStep
  have known := admissible operand consumed
  simp only [Operand.Admissible, previous] at known
  obtain ⟨name, earlier, text⟩ := known
  have names := names_of_yields implements.bindings
  have keys : (emitBindings pipeline.bindings).map Prod.fst = (steps.map (·.output)).eraseDups := by
    rw [keys_emitBindings, names]
  have order : Json.position (emitBindings pipeline.bindings) name <
      Json.position (emitBindings pipeline.bindings) step.output ↔
        (steps.map (·.output)).idxOf name < (steps.map (·.output)).idxOf step.output := by
    rw [Json.position, Json.position, keys]
    exact idxOf_eraseDups_lt_iff _ _ _
  have among : namesBefore steps index = (steps.map (·.output)).take index := List.map_take
  rw [among] at earlier
  have member : name ∈ steps.map (·.output) := List.mem_of_mem_take earlier
  have own : step.output ∈ steps.map (·.output) := List.mem_map_of_mem (List.mem_of_getElem? atStep)
  obtain ⟨e, last⟩ := Pipeline.get?_isSome (names ▸ member)
  have value : (emitBindings pipeline.bindings).lookup name = some e.emit := by
    rw [lookup_emitBindings, last, Option.map_some]
  refine ⟨name, emitBindings pipeline.bindings, text, rfl, ?_, ?_, order, ?_, ⟨e, last, value⟩, ?_⟩
  · exact keys ▸ List.mem_eraseDups.mpr member
  · exact keys ▸ List.mem_eraseDups.mpr own
  · intro first
    exact order.mpr (idxOf_lt_of_mem_take earlier (among ▸ first))
  · intro unbound
    rw [List.map_drop, ← names, ← List.map_drop] at unbound
    exact ⟨e, (Pipeline.get?_before unbound).trans last, value⟩

theorem emitted_order_of_orders :
    ∃ name members, Operand.text? (.previousStep "year") = some name ∧
      Scope.orders.pipeline.emit.get? "addFields" = some (.obj members) ∧
      name ∈ members.map Prod.fst ∧ "line" ∈ members.map Prod.fst ∧
      (Json.position members name < Json.position members "line" ↔
        (Scope.orders.steps.map (·.output)).idxOf name < (Scope.orders.steps.map (·.output)).idxOf "line") ∧
      ("line" ∉ namesBefore Scope.orders.steps 2 → Json.position members name < Json.position members "line") ∧
      (∃ e, Scope.orders.pipeline.get? name = some e ∧ members.lookup name = some e.emit) ∧
      (name ∉ (Scope.orders.steps.drop 2).map (·.output) →
        ∃ e, (Scope.orders.pipeline.before 2).get? name = some e ∧ members.lookup name = some e.emit) :=
  emitted_order_of_results Scope.orders.compiles rfl
    (show Scope.orders.steps[2]? = some _ from rfl)
    (show Operand.previousStep "year" ∈ Step.consumed _ from List.mem_of_getElem? (i := 1) rfl) rfl

def Scope.amounts : Scope where
  root := "order"
  schema := ⟨[{ name := "order", fields := [{ name := "amount", type := .number }] }]⟩

/-- Two names, each of them bound twice. The third step reads what the second one has made of the amount. -/
def Scope.amounts.steps : List Step :=
  [{ output := "b", operator := "$abs", operand1 := .field "amount" },
    { output := "a", operator := "$ceil", operand1 := .field "amount" },
    { output := "b", operator := "$floor", operand1 := .previousStep "a" },
    { output := "a", operator := "$sqrt", operand1 := .field "amount" }]

def Scope.amounts.pipeline : Pipeline where
  lookups := []
  bindings := [⟨"b", .apply .abs [.field "amount"]⟩, ⟨"a", .apply .ceil [.field "amount"]⟩,
    ⟨"b", .apply .floor [.field "a"]⟩, ⟨"a", .apply .sqrt [.field "amount"]⟩]

/-- The step named `b` that reads `a` is emitted in front of it, and the expression it reads is gone. -/
theorem rebound_results_lose_order :
    Scope.amounts.tryCompile Scope.amounts.steps = .ok (.compiled "a" Scope.amounts.pipeline) ∧
      consumedAt? Scope.amounts.steps 2 0 = some (.previousStep "a") ∧
      Scope.amounts.steps[2]?.map (·.output) = some "b" ∧
      ∃ members, Scope.amounts.pipeline.emit.get? "addFields" = some (.obj members) ∧
        ¬ Json.position members "a" < Json.position members "b" ∧
        ((Scope.amounts.pipeline.before 2).get? "a").map Expr.emit = some (.obj [("$ceil", .str "$amount")]) ∧
        members.lookup "a" = some (.obj [("$sqrt", .str "$amount")]) ∧
        members.lookup "a" ≠ ((Scope.amounts.pipeline.before 2).get? "a").map Expr.emit := by
  refine ⟨rfl, rfl, rfl, _, rfl, by decide, rfl, rfl, ?_⟩
  intro same
  have literal : some (Json.obj [("$sqrt", .str "$amount")]) = some (.obj [("$ceil", .str "$amount")]) := same
  simp at literal

end ComputedFields
