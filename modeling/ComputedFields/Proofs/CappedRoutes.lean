import ComputedFields.Proofs.PickedPaths

namespace ComputedFields

namespace Schema

variable {schema : Schema} {hops more : Nat} {visited : List String} {model : Model}

/-- A path is one relation longer than what comes behind its first relation. -/
theorem filter_branch (schema : Schema) (further : Hop → List ResolvedPath) (visited : List String) (model : Model)
    (field : Field) (hops : Nat) :
    (schema.branch further visited model field).filter (·.chain.length ≤ hops) =
      schema.branch (fun hop => (further hop).filter (·.chain.length < hops)) visited model field := by
  unfold branch
  split
  · cases schema.onward? visited model field with
    | none => rfl
    | some hop =>
      rw [List.filter_map]
      rfl
  · rfl

/-- To cut off the long routes, it is enough to do so behind each hop, where they are one hop shorter. -/
theorem filter_routes_of_after
    (after : ∀ hop, (schema.routesAfter visited more hop).filter (·.chain.length < hops) =
      schema.routesAfter visited hops hop) :
    (schema.routes more visited model).filter (·.chain.length ≤ hops) = schema.routes hops visited model := by
  rw [routes_eq, routes_eq, List.filter_flatMap]
  simp only [filter_branch, after]

/-- With fewer hops the picker takes the same paths in the same order, only without those that are too long. -/
theorem filter_routes (within : hops ≤ more) (visited : List String) (model : Model) :
    (schema.routes more visited model).filter (·.chain.length ≤ hops) = schema.routes hops visited model := by
  -- Both caps go down together with every hop, and what has been visited is the same for both.
  induction hops generalizing more visited model with
  | zero =>
    refine filter_routes_of_after fun hop => ?_
    simp [routesAfter]
  | succ hops ih =>
    obtain ⟨more, rfl⟩ := Nat.exists_eq_succ_of_ne_zero (by omega : more ≠ 0)
    refine filter_routes_of_after fun hop => ?_
    simp only [routesAfter, Nat.lt_succ_iff]
    exact ih (Nat.le_of_succ_le_succ within) _ _

/-- The models on a route are different ones of the schema, so that there are no more of them than it has. -/
theorem IsRoute.length_lt {path : ResolvedPath} (route : schema.IsRoute [model.name] model path)
    (member : model ∈ schema.models) : path.chain.length < schema.models.length := by
  have known : model.name :: path.chain.map (·.target.name) ⊆ schema.models.map (·.name) := by
    intro name inside
    rcases List.mem_cons.mp inside with rfl | later
    · exact List.mem_map_of_mem member
    · obtain ⟨hop, inChain, rfl⟩ := List.mem_map.mp later
      exact List.mem_map_of_mem (route.linked.target_mem inChain)
  have bound := route.nodup.length_le_of_subset known
  rwa [List.length_cons, List.length_map, List.length_map] at bound

/-- What the picker offers within fewer hops is what it offers anyway, without the options that are too deep. -/
theorem availableFields_eq_filter (schema : Schema) (root : String) (within : hops ≤ more) :
    schema.availableFields root hops = (schema.availableFields root more).filter (·.depth ≤ hops) := by
  cases atRoot : schema.model? root with
  | none =>
    simp only [availableFields, atRoot]
    rfl
  | some model =>
    rw [availableFields_eq_routes atRoot, availableFields_eq_routes atRoot, List.filter_map, ← filter_routes within]
    rfl

/-- No option is as deep as the schema has models, whatever relations lead back to. -/
theorem depth_lt_of_mem_availableFields {root : String} {option : FieldOption}
    (member : option ∈ schema.availableFields root hops) : option.depth < schema.models.length := by
  cases atRoot : schema.model? root with
  | none =>
    rw [availableFields, atRoot] at member
    cases member
  | some model =>
    rw [availableFields_eq_routes atRoot] at member
    obtain ⟨path, inRoutes, rfl⟩ := List.mem_map.mp member
    exact (mem_routes_iff.mp inRoutes).1.length_lt (List.mem_of_find?_eq_some atRoot)

end Schema

/-- The number of hops does nothing but leave out what is deeper, and from one less than the number of models on there
is nothing left out. Names may be repeated and relations may lead in circles. -/
theorem hops_cut_off_depth (schema : Schema) (root : String) :
    (∀ hops more, hops ≤ more →
      schema.availableFields root hops = (schema.availableFields root more).filter (·.depth ≤ hops)) ∧
    (∀ hops, ∀ option ∈ schema.availableFields root hops, option.depth < schema.models.length) ∧
    ∀ hops, schema.models.length - 1 ≤ hops →
      schema.availableFields root hops = schema.availableFields root (schema.models.length - 1) := by
  refine ⟨fun hops more within => schema.availableFields_eq_filter root within,
    fun hops option member => Schema.depth_lt_of_mem_availableFields member, fun hops enough => ?_⟩
  rw [schema.availableFields_eq_filter root enough, List.filter_eq_self.mpr]
  intro option member
  have bound := Schema.depth_lt_of_mem_availableFields member
  exact decide_eq_true (by omega)

/-- Employees and offices lead in circles, but one relation is as deep as they go. -/
theorem hops_of_employees :
    Schema.employees.availableFields "employee" 0 =
      (Schema.employees.availableFields "employee" 3).filter (·.depth ≤ 0) ∧
    (∀ option ∈ Schema.employees.availableFields "employee" 3, option.depth < 2) ∧
    Schema.employees.availableFields "employee" 3 = Schema.employees.availableFields "employee" 1 ∧
    (Schema.employees.availableFields "employee" 0).map (·.path) = ["name"] ∧
    (Schema.employees.availableFields "employee" 3).map (·.path) = ["name", "office.city"] := by
  obtain ⟨cut, bounded, saturated⟩ := hops_cut_off_depth Schema.employees "employee"
  exact ⟨cut 0 3 (by decide), bounded 3, saturated 3 (by decide), rfl, rfl⟩

end ComputedFields
