import ComputedFields.Picker
import ComputedFields.Proofs.FollowedPath
import Mathlib.Data.List.Nodup

namespace ComputedFields

/-- The display names along a path, that of the field last. -/
def ResolvedPath.labels (path : ResolvedPath) : List String :=
  path.chain.map (·.field.displayName) ++ [path.leaf.displayName]

/-- The field that a path takes first, be it a relation or the end. -/
def ResolvedPath.first (path : ResolvedPath) : Field := (path.chain.head?.map (·.field)).getD path.leaf

/-- The path with one more relation in front. -/
def ResolvedPath.behind (path : ResolvedPath) (hop : Hop) : ResolvedPath := ⟨hop.model, hop :: path.chain, path.leaf⟩

/-- The option for a path that goes on where the trail has come to. -/
def Trail.describe (trail : Trail) (path : ResolvedPath) : FieldOption where
  path := Text.join "." (trail.path ++ path.segments)
  label := Text.join " > " (trail.labels ++ path.labels)
  type := path.leaf.type
  depth := trail.path.length + path.chain.length

theorem Trail.describe_behind (trail : Trail) (hop : Hop) (path : ResolvedPath) :
    trail.describe (path.behind hop) = (trail.follow hop.field hop.target.name).describe path := by
  simp only [Trail.describe, Trail.follow, ResolvedPath.behind, ResolvedPath.segments, ResolvedPath.labels,
    List.map_cons, List.cons_append, List.append_assoc, List.nil_append, List.length_append, List.length_cons,
    List.length_nil, FieldOption.mk.injEq, true_and]
  omega

namespace Schema

/-- The hop along a field, unless it leads nowhere or to a model that has been visited. -/
def onward? (schema : Schema) (visited : List String) (model : Model) (field : Field) : Option Hop :=
  match field.target? with
  | none => none
  | some target => if visited.contains target then none else (schema.model? target).map (⟨model, field, ·⟩)

/-- The paths that begin with a field, where `further` has those that go on after a hop. -/
def branch (schema : Schema) (further : Hop → List ResolvedPath) (visited : List String) (model : Model)
    (field : Field) : List ResolvedPath :=
  if field.type.isRelation then
    match schema.onward? visited model field with
    | none => []
    | some hop => (further hop).map (·.behind hop)
  else [⟨model, [], field⟩]

/-- The paths that the picker takes, in its order. -/
def routes (schema : Schema) : (hops : Nat) → (visited : List String) → Model → List ResolvedPath
  | 0, visited, model => model.fields.flatMap (schema.branch (fun _ => []) visited model)
  | hops + 1, visited, model =>
    model.fields.flatMap
      (schema.branch (fun hop => schema.routes hops (hop.target.name :: visited) hop.target) visited model)

/-- The paths after a hop, as long as there are hops left. -/
def routesAfter (schema : Schema) (visited : List String) : (hops : Nat) → Hop → List ResolvedPath
  | 0, _ => []
  | hops + 1, hop => schema.routes hops (hop.target.name :: visited) hop.target

/-- The two cases of `routes` in one equation, in which only `routesAfter` asks whether there are hops left. -/
theorem routes_eq (schema : Schema) (hops : Nat) (visited : List String) (model : Model) :
    schema.routes hops visited model =
      model.fields.flatMap (schema.branch (schema.routesAfter visited hops) visited model) := by
  cases hops <;> rfl

variable {schema : Schema} {hops : Nat} {visited : List String} {trail : Trail} {model : Model} {field : Field}
  {hop : Hop} {path rest : ResolvedPath}

theorem onward?_eq_some_iff :
    schema.onward? visited model field = some hop ↔
      hop.model = model ∧ hop.field = field ∧ field.target? = some hop.target.name ∧ hop.target.name ∉ visited ∧
        schema.model? hop.target.name = some hop.target := by
  rw [onward?]
  cases target : field.target? with
  | none => simp only [reduceCtorEq, false_and, and_false]
  | some name =>
    by_cases been : name ∈ visited
    · simp only [List.contains_iff_mem, been, if_true, reduceCtorEq, Option.some.injEq, false_iff]
      rintro ⟨_, _, rfl, new, _⟩
      exact new been
    · simp only [List.contains_iff_mem, been, if_false, Option.map_eq_some_iff, Option.some.injEq]
      constructor
      · rintro ⟨next, found, rfl⟩
        have named := Schema.model?_name found
        exact ⟨rfl, rfl, named.symm, named ▸ been, named ▸ found⟩
      · rintro ⟨rfl, rfl, rfl, _, found⟩
        exact ⟨hop.target, found, rfl⟩

theorem onward?_eq_ahead? {name : String} (target : field.target? = some name) :
    schema.onward? trail.visited model field = (schema.ahead? trail name).map (⟨model, field, ·⟩) := by
  rw [onward?, target, ahead?]
  dsimp only
  split <;> rfl

theorem ahead?_name {name : String} {next : Model} (found : schema.ahead? trail name = some next) :
    next.name = name := by
  rw [ahead?] at found
  split at found
  · cases found
  · exact Schema.model?_name found

/-- The picker takes the routes, and writes down each of them from where its trail has come to. -/
theorem options_eq_routes (schema : Schema) (hops : Nat) (trail : Trail) (model : Model) :
    schema.options hops trail model = (schema.routes hops trail.visited model).map trail.describe := by
  induction hops generalizing trail model with
  | zero =>
    rw [options, routes, List.map_flatMap]
    refine congrArg model.fields.flatMap (funext fun field => ?_)
    rw [branch]
    split
    · split <;> rfl
    · rfl
  | succ hops ih =>
    rw [options, routes, List.map_flatMap]
    refine congrArg model.fields.flatMap (funext fun field => ?_)
    cases target : field.target? with
    | none =>
      simp only [branch, onward?, target]
      split <;> rfl
    | some name =>
      have relation := Field.isRelation_of_target? target
      simp only [branch, relation, if_true, onward?_eq_ahead? target]
      cases found : schema.ahead? trail name with
      | none => rfl
      | some next =>
        simp only [Option.map_some, List.map_map, ih, Function.comp_def, Trail.describe_behind, ahead?_name found]
        rfl

/-- The routes along one field are the field itself, unless it is a relation, and all that goes on behind it. -/
theorem mem_branch_iff {further : Hop → List ResolvedPath} :
    path ∈ schema.branch further visited model field ↔
      (field.type.isRelation = false ∧ path = ⟨model, [], field⟩) ∨
        ∃ hop, schema.onward? visited model field = some hop ∧ ∃ rest ∈ further hop, path = rest.behind hop := by
  rw [branch]
  cases relation : field.type.isRelation with
  | false =>
    have nowhere : schema.onward? visited model field = none := by
      cases onward : schema.onward? visited model field with
      | none => rfl
      | some hop =>
        have target := (onward?_eq_some_iff.mp onward).2.2.1
        exact absurd (Field.isRelation_of_target? target) (by rw [relation]; decide)
    simp only [Bool.false_eq_true, if_false, List.mem_singleton, true_and, nowhere, reduceCtorEq, false_and,
      exists_false, or_false]
  | true =>
    simp only [if_true, Bool.true_eq_false, false_and, false_or]
    cases schema.onward? visited model field with
    | none => simp only [List.not_mem_nil, reduceCtorEq, false_and, exists_false]
    | some hop => simp only [List.mem_map, Option.some.injEq, exists_eq_left', eq_comm]

/-- A relation of a model, with the model that it names. -/
structure Relates (schema : Schema) (hop : Hop) : Prop where
  field : hop.field ∈ hop.model.fields
  target : hop.field.target? = some hop.target.name
  found : schema.model? hop.target.name = some hop.target

/-- Relations that go on from one another. Of fields that share a name any one may be taken. -/
inductive Linked (schema : Schema) : Model → List Hop → Prop
  | nil {model : Model} : Linked schema model []
  | cons {hop : Hop} {chain : List Hop} : schema.Relates hop → Linked schema hop.target chain →
      Linked schema hop.model (hop :: chain)

/-- A path to a field that is no relation, by way of models none of which has been visited. -/
structure IsRoute (schema : Schema) (visited : List String) (model : Model) (path : ResolvedPath) : Prop where
  root : path.root = model
  linked : schema.Linked model path.chain
  leaf : path.leaf ∈ (reached model path.chain).fields
  value : path.leaf.type.isRelation = false
  apart : (path.chain.map (·.target.name)).Nodup
  new : ∀ hop ∈ path.chain, hop.target.name ∉ visited

/-- A hop can be put in front of a route if it leads to its start and to no model that was visited. -/
theorem IsRoute.behind (relates : schema.Relates hop) (new : hop.target.name ∉ visited)
    (route : schema.IsRoute (hop.target.name :: visited) hop.target rest) :
    schema.IsRoute visited hop.model (rest.behind hop) where
  root := rfl
  linked := .cons relates route.linked
  leaf := by
    rw [ResolvedPath.behind, reached_cons]
    exact route.leaf
  value := route.value
  apart := by
    refine List.nodup_cons.mpr ⟨?_, route.apart⟩
    intro again
    obtain ⟨later, member, same⟩ := List.mem_map.mp again
    exact route.new later member (same ▸ List.mem_cons_self ..)
  new := by
    intro other member
    rcases List.mem_cons.mp member with rfl | later
    · exact new
    · exact fun been => route.new other later (List.mem_cons_of_mem _ been)

/-- Without its first hop a route is a route from the target of that hop, which then counts as visited. -/
theorem IsRoute.after {root : Model} {chain : List Hop} {leaf : Field}
    (route : schema.IsRoute visited model ⟨root, hop :: chain, leaf⟩) :
    hop.model = model ∧ schema.Relates hop ∧ hop.target.name ∉ visited ∧
      schema.IsRoute (hop.target.name :: visited) hop.target ⟨hop.target, chain, leaf⟩ := by
  obtain ⟨_, linked, atLeaf, value, apart, new⟩ := route
  obtain ⟨first, later⟩ := List.nodup_cons.mp apart
  cases linked with
  | cons relates further =>
    refine ⟨rfl, relates, new hop (List.mem_cons_self ..), rfl, further, ?_, value, later, ?_⟩
    · rwa [reached_cons] at atLeaf
    · intro other member been
      rcases List.mem_cons.mp been with same | old
      · exact first (List.mem_map.mpr ⟨other, member, same⟩)
      · exact new other (List.mem_cons_of_mem _ member) old

/-- The routes from a model, when those that go on after its hops are known. -/
theorem mem_routes_of_after
    (after : ∀ hop rest, rest ∈ schema.routesAfter visited hops hop ↔
      schema.IsRoute (hop.target.name :: visited) hop.target rest ∧ rest.chain.length < hops) :
    path ∈ schema.routes hops visited model ↔ schema.IsRoute visited model path ∧ path.chain.length ≤ hops := by
  rw [routes_eq, List.mem_flatMap]
  constructor
  · rintro ⟨field, member, inBranch⟩
    rcases mem_branch_iff.mp inBranch with ⟨value, rfl⟩ | ⟨hop, onward, rest, further, rfl⟩
    · exact ⟨⟨rfl, .nil, member, value, List.nodup_nil, fun _ none => absurd none List.not_mem_nil⟩, Nat.zero_le _⟩
    · obtain ⟨rfl, rfl, target, new, found⟩ := onward?_eq_some_iff.mp onward
      obtain ⟨route, short⟩ := (after hop rest).mp further
      exact ⟨.behind ⟨member, target, found⟩ new route, short⟩
  · rintro ⟨route, short⟩
    obtain ⟨root, chain, leaf⟩ := path
    cases chain with
    | nil =>
      cases route.root
      exact ⟨leaf, route.leaf, mem_branch_iff.mpr (Or.inl ⟨route.value, rfl⟩)⟩
    | cons hop chain =>
      cases route.root
      obtain ⟨rfl, relates, new, later⟩ := route.after
      have onward := onward?_eq_some_iff.mpr ⟨rfl, rfl, relates.target, new, relates.found⟩
      have further := (after hop ⟨hop.target, chain, leaf⟩).mpr ⟨later, short⟩
      exact ⟨hop.field, relates.field, mem_branch_iff.mpr (Or.inr ⟨hop, onward, _, further, rfl⟩)⟩

/-- The picker takes every route that is not too long, and nothing else. -/
theorem mem_routes_iff :
    path ∈ schema.routes hops visited model ↔ schema.IsRoute visited model path ∧ path.chain.length ≤ hops := by
  -- What has been visited grows with every hop, so that it is free in the induction.
  induction hops generalizing visited model path with
  | zero =>
    refine mem_routes_of_after fun hop rest => ?_
    simp only [routesAfter, List.not_mem_nil, Nat.not_lt_zero, and_false]
  | succ hops ih =>
    refine mem_routes_of_after fun hop rest => ?_
    rw [routesAfter, ih, Nat.lt_succ_iff]

theorem first_of_mem_branch {further : Hop → List ResolvedPath}
    (member : path ∈ schema.branch further visited model field) : path.first = field := by
  rcases mem_branch_iff.mp member with ⟨_, rfl⟩ | ⟨hop, onward, rest, _, rfl⟩
  · rfl
  · exact (onward?_eq_some_iff.mp onward).2.1

theorem root_of_mem_routesAfter (member : rest ∈ schema.routesAfter visited hops hop) : rest.root = hop.target := by
  cases hops with
  | zero => cases member
  | succ hops => exact (mem_routes_iff.mp member).1.root

theorem nodup_branch
    (after : ∀ hop, schema.onward? visited model field = some hop → (schema.routesAfter visited hops hop).Nodup) :
    (schema.branch (schema.routesAfter visited hops) visited model field).Nodup := by
  rw [branch]
  split
  · cases onward : schema.onward? visited model field with
    | none => exact List.nodup_nil
    | some hop =>
      refine (after hop onward).map_on ?_
      rintro ⟨root, chain, leaf⟩ member ⟨root', chain', leaf'⟩ member' same
      have sameRoot : root = root' := (root_of_mem_routesAfter member).trans (root_of_mem_routesAfter member').symm
      simp only [ResolvedPath.behind, ResolvedPath.mk.injEq, List.cons.injEq, true_and] at same
      rw [sameRoot, same.1, same.2]
  · exact List.nodup_singleton _

/-- Paths that begin with different fields are different. -/
theorem nodup_routes_of_after (once : model.fields.Nodup)
    (after : ∀ field hop, schema.onward? visited model field = some hop →
      (schema.routesAfter visited hops hop).Nodup) : (schema.routes hops visited model).Nodup := by
  rw [routes_eq, List.nodup_flatMap]
  refine ⟨fun field _ => nodup_branch (after field), once.pairwise_of_forall_ne ?_⟩
  intro field _ other _ different
  refine List.disjoint_left.mpr fun path inField inOther => different ?_
  exact (first_of_mem_branch inField).symm.trans (first_of_mem_branch inOther)

/-- No path is taken twice where no model has the same field twice. -/
theorem nodup_routes (once : ∀ model ∈ schema.models, model.fields.Nodup) (hops : Nat) (visited : List String)
    (member : model ∈ schema.models) :
    (schema.routes hops visited model).Nodup := by
  induction hops generalizing visited model with
  | zero => exact nodup_routes_of_after (once model member) fun _ _ _ => List.nodup_nil
  | succ hops ih =>
    refine nodup_routes_of_after (once model member) fun field hop onward => ?_
    obtain ⟨_, _, _, _, found⟩ := onward?_eq_some_iff.mp onward
    exact ih (hop.target.name :: visited) (List.mem_of_find?_eq_some found)

end Schema

end ComputedFields
