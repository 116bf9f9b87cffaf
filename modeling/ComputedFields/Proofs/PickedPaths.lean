import ComputedFields.Proofs.EnumeratedRoutes

namespace ComputedFields

/-- Names by which each field of a model can be told and written into a path. -/
structure Model.PlainNames (model : Model) : Prop where
  distinct : (model.fields.map (·.name)).Nodup
  visible : ∀ field ∈ model.fields, Text.allBlank field.name = false
  dotless : ∀ field ∈ model.fields, '.' ∉ field.name.toList

def Schema.PlainNames (schema : Schema) : Prop := ∀ model ∈ schema.models, model.PlainNames

instance (model : Model) : Decidable model.PlainNames :=
  decidable_of_iff ((model.fields.map (·.name)).Nodup ∧ (∀ field ∈ model.fields, Text.allBlank field.name = false) ∧
      ∀ field ∈ model.fields, '.' ∉ field.name.toList)
    ⟨fun ⟨distinct, visible, dotless⟩ => ⟨distinct, visible, dotless⟩,
      fun plain => ⟨plain.distinct, plain.visible, plain.dotless⟩⟩

instance (schema : Schema) : Decidable schema.PlainNames :=
  inferInstanceAs (Decidable (∀ model ∈ schema.models, model.PlainNames))

/-- What the picker offers: a path to a value, over few enough relations, that enters no model twice. -/
structure ResolvedPath.Selectable (path : ResolvedPath) (hops : Nat) : Prop where
  value : path.leaf.type ≠ .relation
  short : path.chain.length ≤ hops
  apart : (path.root.name :: path.chain.map (·.target.name)).Nodup

/-- What the picker says of a path. -/
def ResolvedPath.option (path : ResolvedPath) : FieldOption where
  path := path.text
  label := Text.join " > " path.labels
  type := path.leaf.type
  depth := path.chain.length

theorem Trail.describe_start (visited : List String) (path : ResolvedPath) :
    Trail.describe ⟨[], [], visited⟩ path = path.option := by
  simp only [Trail.describe, ResolvedPath.option, ResolvedPath.text, List.nil_append, List.length_nil, Nat.zero_add]

theorem FieldType.isRelation_eq_false_iff {type : FieldType} : type.isRelation = false ↔ type ≠ .relation := by
  cases type <;> simp [FieldType.isRelation]

theorem Text.mem_join {sep segment : String} {segments : List String} (member : segment ∈ segments) {c : Char}
    (inside : c ∈ segment.toList) : c ∈ (Text.join sep segments).toList := by
  induction segments with
  | nil => cases member
  | cons first rest ih =>
    cases rest with
    | nil =>
      cases List.mem_singleton.mp member
      exact inside
    | cons next more =>
      simp only [Text.join, String.toList_append, List.mem_append]
      rcases List.mem_cons.mp member with rfl | later
      · exact Or.inl (Or.inl inside)
      · exact Or.inr (ih later)

theorem Text.allBlank_join {sep segment : String} {segments : List String} (member : segment ∈ segments)
    (visible : Text.allBlank segment = false) : Text.allBlank (Text.join sep segments) = false := by
  obtain ⟨c, inside, shown⟩ := List.all_eq_false.mp visible
  exact List.all_eq_false.mpr ⟨c, Text.mem_join member inside, shown⟩

/-- Names without dots are what a path that is joined from them falls into. -/
theorem names_of_join {names : List String} {leaf : String}
    (dotless : ∀ name ∈ names ++ [leaf], '.' ∉ name.toList) :
    relationNames (Text.join "." (names ++ [leaf])) = names ∧ leafName (Text.join "." (names ++ [leaf])) = leaf := by
  have split := relationNames_append_leafName (Text.join "." (names ++ [leaf]))
  have joined : Text.split '.' (Text.join "." (names ++ [leaf])) = names ++ [leaf] :=
    Text.split_join (List.append_ne_nil_of_right_ne_nil _ (List.cons_ne_nil _ _)) dotless
  exact List.append_singleton_inj.mp (split.trans joined)

theorem Model.PlainNames.field?_eq_some_iff {model : Model} (plain : model.PlainNames) {name : String}
    {field : Field} : model.field? name = some field ↔ field ∈ model.fields ∧ field.name = name := by
  constructor
  · intro found
    exact ⟨List.mem_of_find?_eq_some found, Model.field?_name found⟩
  · rintro ⟨member, rfl⟩
    cases found : model.field? field.name with
    | none => exact absurd (beq_self_eq_true field.name) (List.find?_eq_none.mp found field member)
    | some other =>
      have sameName := Model.field?_name found
      rw [List.inj_on_of_nodup_map plain.distinct (List.mem_of_find?_eq_some found) member sameName]

namespace Schema

theorem Relates.of_hop {schema : Schema} {model : Model} {name : String} {hop : Hop}
    (run : schema.hop model name = .ok hop) : schema.Relates hop := by
  obtain ⟨rfl, found, target, atTarget⟩ := hop_ok_iff.mp run
  exact ⟨List.mem_of_find?_eq_some found, target, atTarget⟩

namespace Linked

variable {schema : Schema} {model : Model} {chain : List Hop}

theorem reached_mem (linked : schema.Linked model chain) (member : model ∈ schema.models) :
    reached model chain ∈ schema.models := by
  induction linked with
  | nil => exact member
  | cons relates _ ih =>
    rw [reached_cons]
    exact ih (List.mem_of_find?_eq_some relates.found)

theorem hop_mem (linked : schema.Linked model chain) (member : model ∈ schema.models) {hop : Hop}
    (inChain : hop ∈ chain) : hop.model ∈ schema.models ∧ hop.field ∈ hop.model.fields := by
  induction linked with
  | nil => cases inChain
  | cons relates _ ih =>
    rcases List.mem_cons.mp inChain with rfl | later
    · exact ⟨member, relates.field⟩
    · exact ih (List.mem_of_find?_eq_some relates.found) later

theorem target_mem (linked : schema.Linked model chain) {hop : Hop} (inChain : hop ∈ chain) :
    hop.target ∈ schema.models := by
  induction linked with
  | nil => cases inChain
  | cons relates _ ih =>
    rcases List.mem_cons.mp inChain with rfl | later
    · exact List.mem_of_find?_eq_some relates.found
    · exact ih later

theorem of_follow? {names : List String} (followed : schema.follow? model names = some chain) :
    schema.Linked model chain := by
  induction names generalizing model chain with
  | nil =>
    cases followed
    exact .nil
  | cons name rest ih =>
    obtain ⟨hop, more, first, later, rfl⟩ := follow?_cons_eq_some followed
    obtain rfl := (hop_ok first).1
    exact .cons (.of_hop first) (ih later)

/-- Where names are plain, relations that are linked in any way are those that their names lead along. -/
theorem follow? (linked : schema.Linked model chain) (plain : schema.PlainNames) (member : model ∈ schema.models) :
    schema.follow? model (chain.map (·.field.name)) = some chain := by
  induction linked with
  | nil => rfl
  | @cons hop chain relates _ ih =>
    have found : hop.model.field? hop.field.name = some hop.field :=
      (plain hop.model member).field?_eq_some_iff.mpr ⟨relates.field, rfl⟩
    have first : schema.hop hop.model hop.field.name = .ok hop :=
      hop_ok_iff.mpr ⟨rfl, found, relates.target, relates.found⟩
    rw [List.map_cons, follow?_cons first, ih (List.mem_of_find?_eq_some relates.found), Option.map_some]

end Linked

/-- The path as text resolves to the path itself, and no other text does. -/
theorem resolve_ok_iff_linked {schema : Schema} (plain : schema.PlainNames) {root path : String}
    {resolved : ResolvedPath} :
    schema.resolve root path = .ok resolved ↔
      schema.model? root = some resolved.root ∧ schema.Linked resolved.root resolved.chain ∧
        resolved.leaf ∈ (reached resolved.root resolved.chain).fields ∧ path = resolved.text := by
  rw [resolve_ok_iff]
  constructor
  · rintro ⟨_, atRoot, followed, atLeaf⟩
    refine ⟨atRoot, .of_follow? followed, List.mem_of_find?_eq_some atLeaf, ?_⟩
    rw [ResolvedPath.text, ResolvedPath.segments, follow?_names followed, Model.field?_name atLeaf,
      relationNames_append_leafName]
    exact (Text.join_split '.' path).symm
  · rintro ⟨atRoot, linked, atLeaf, rfl⟩
    have member := List.mem_of_find?_eq_some atRoot
    have atEnd := plain _ (linked.reached_mem member)
    have dotless : ∀ name ∈ resolved.segments, '.' ∉ name.toList := by
      intro name inside
      rcases List.mem_append.mp inside with relation | last
      · obtain ⟨hop, inChain, rfl⟩ := List.mem_map.mp relation
        obtain ⟨owner, field⟩ := linked.hop_mem member inChain
        exact (plain hop.model owner).dotless hop.field field
      · cases List.mem_singleton.mp last
        exact atEnd.dotless resolved.leaf atLeaf
    obtain ⟨relations, last⟩ := names_of_join dotless
    have visible : Text.allBlank resolved.text = false :=
      Text.allBlank_join (List.mem_append_right _ (List.mem_singleton_self _)) (atEnd.visible resolved.leaf atLeaf)
    rw [ResolvedPath.text, ResolvedPath.segments, relations, last]
    exact ⟨visible, atRoot, linked.follow? plain member, atEnd.field?_eq_some_iff.mpr ⟨atLeaf, rfl⟩⟩

/-- A route from a model does not come back to it either. -/
theorem IsRoute.nodup {schema : Schema} {model : Model} {path : ResolvedPath}
    (route : schema.IsRoute [model.name] model path) : (model.name :: path.chain.map (·.target.name)).Nodup := by
  refine List.nodup_cons.mpr ⟨?_, route.apart⟩
  intro again
  obtain ⟨hop, member, same⟩ := List.mem_map.mp again
  exact route.new hop member (List.mem_singleton.mpr same)

/-- The routes from the root are the paths that resolve to themselves and can be selected. -/
theorem mem_routes_iff_resolve {schema : Schema} (plain : schema.PlainNames) {root : String} {model : Model}
    (atRoot : schema.model? root = some model) {hops : Nat} {path : ResolvedPath} :
    path ∈ schema.routes hops [model.name] model ↔
      schema.resolve root path.text = .ok path ∧ path.Selectable hops := by
  rw [mem_routes_iff, resolve_ok_iff_linked plain]
  constructor
  · rintro ⟨route, short⟩
    cases route.root
    exact ⟨⟨atRoot, route.linked, route.leaf, rfl⟩, FieldType.isRelation_eq_false_iff.mp route.value, short,
      route.nodup⟩
  · rintro ⟨⟨found, linked, atLeaf, _⟩, value, short, apart⟩
    obtain rfl := Option.some.inj (atRoot.symm.trans found)
    obtain ⟨notRoot, later⟩ := List.nodup_cons.mp apart
    refine ⟨⟨rfl, linked, atLeaf, FieldType.isRelation_eq_false_iff.mpr value, later, ?_⟩, short⟩
    intro hop member been
    exact notRoot (List.mem_map.mpr ⟨hop, member, List.mem_singleton.mp been⟩)

theorem availableFields_eq_routes {schema : Schema} {root : String} {model : Model}
    (atRoot : schema.model? root = some model) (hops : Nat) :
    schema.availableFields root hops = (schema.routes hops [model.name] model).map ResolvedPath.option := by
  rw [availableFields, atRoot]
  dsimp only
  rw [options_eq_routes]
  exact List.map_congr_left fun path _ => Trail.describe_start _ path

/-- An option is there for each path that resolves and can be selected, and it says what the path is resolved to. -/
theorem mem_availableFields_iff {schema : Schema} (plain : schema.PlainNames) {root : String} {hops : Nat}
    {option : FieldOption} :
    option ∈ schema.availableFields root hops ↔ ∃ resolved, schema.resolve root option.path = .ok resolved ∧
      resolved.Selectable hops ∧ option = resolved.option := by
  cases atRoot : schema.model? root with
  | none =>
    have nothing : schema.availableFields root hops = [] := by rw [availableFields, atRoot]
    rw [nothing]
    refine iff_of_false List.not_mem_nil ?_
    rintro ⟨resolved, found, _⟩
    rw [resolve_ok_iff, atRoot] at found
    cases found.2.1
  | some model =>
    rw [availableFields_eq_routes atRoot, List.mem_map]
    constructor
    · rintro ⟨resolved, member, rfl⟩
      obtain ⟨found, selectable⟩ := (mem_routes_iff_resolve plain atRoot).mp member
      exact ⟨resolved, found, selectable, rfl⟩
    · rintro ⟨resolved, found, selectable, rfl⟩
      exact ⟨resolved, (mem_routes_iff_resolve plain atRoot).mpr ⟨found, selectable⟩, rfl⟩

/-- Two routes with the same text resolve alike, so that they are one route. -/
theorem nodup_availableFields {schema : Schema} (plain : schema.PlainNames) (root : String) (hops : Nat) :
    ((schema.availableFields root hops).map (·.path)).Nodup := by
  cases atRoot : schema.model? root with
  | none =>
    rw [availableFields, atRoot]
    exact List.nodup_nil
  | some model =>
    have once : ∀ model ∈ schema.models, model.fields.Nodup :=
      fun model member => .of_map _ (plain model member).distinct
    have member : model ∈ schema.models := List.mem_of_find?_eq_some atRoot
    rw [availableFields_eq_routes atRoot, List.map_map]
    refine (nodup_routes once hops [model.name] member).map_on ?_
    intro path inRoutes other inRoutes' (same : path.text = other.text)
    have found := ((mem_routes_iff_resolve plain atRoot).mp inRoutes).1
    have found' := ((mem_routes_iff_resolve plain atRoot).mp inRoutes').1
    rw [same, found'] at found
    exact (Except.ok.inj found).symm

end Schema

/-- The picker offers exactly the paths that resolve to a value without a detour, each of them once, and says of each
what resolving it would say. -/
theorem picker_lists_selectable_paths {schema : Schema} (plain : schema.PlainNames) (root : String) (hops : Nat) :
    (∀ path, path ∈ (schema.availableFields root hops).map (·.path) ↔
      ∃ resolved, schema.resolve root path = .ok resolved ∧ resolved.Selectable hops) ∧
    ((schema.availableFields root hops).map (·.path)).Nodup ∧
    ∀ option ∈ schema.availableFields root hops, ∃ resolved, schema.resolve root option.path = .ok resolved ∧
      option.type = resolved.leaf.type ∧ option.depth = resolved.chain.length ∧
        option.label =
          Text.join " > " (resolved.chain.map (·.field.displayName) ++ [resolved.leaf.displayName]) := by
  refine ⟨?_, Schema.nodup_availableFields plain root hops, ?_⟩
  · intro path
    rw [List.mem_map]
    constructor
    · rintro ⟨option, member, rfl⟩
      obtain ⟨resolved, found, selectable, _⟩ := (Schema.mem_availableFields_iff plain).mp member
      exact ⟨resolved, found, selectable⟩
    · rintro ⟨resolved, found, selectable⟩
      obtain rfl := ((Schema.resolve_ok_iff_linked plain).mp found).2.2.2
      exact ⟨resolved.option, (Schema.mem_availableFields_iff plain).mpr ⟨resolved, found, selectable, rfl⟩, rfl⟩
  · intro option member
    obtain ⟨resolved, found, _, same⟩ := (Schema.mem_availableFields_iff plain).mp member
    rw [same] at found ⊢
    exact ⟨resolved, found, rfl, rfl, rfl⟩

/-- Employees and offices lead to each other, and some relations lead nowhere. -/
def Schema.employees : Schema := ⟨[
  { name := "employee", fields := [{ name := "name", label := some "Name" },
    { name := "manager", type := .relation, relation := some "employee" },
    { name := "office", type := .relation, relation := some "office", label := some "Office" },
    { name := "badge", type := .relation }] },
  { name := "office", fields := [{ name := "city" },
    { name := "head", type := .relation, relation := some "employee" },
    { name := "lease", type := .relation, relation := some "contract" }] }]⟩

/-- The head of the office has a name too, but is an employee again. -/
theorem picker_of_employees :
    Schema.employees.PlainNames ∧
    (∃ resolved, Schema.employees.resolve "employee" "office.city" = .ok resolved ∧ resolved.Selectable 3) ∧
    (¬ ∃ resolved, Schema.employees.resolve "employee" "office.head.name" = .ok resolved ∧ resolved.Selectable 3) ∧
    ((Schema.employees.availableFields "employee" 3).map (·.path)).Nodup ∧
    (Schema.employees.availableFields "employee" 3).map (·.label) = ["Name", "Office > city"] := by
  have plain : Schema.employees.PlainNames := by decide
  obtain ⟨listed, once, _⟩ := picker_lists_selectable_paths plain "employee" 3
  have paths : (Schema.employees.availableFields "employee" 3).map (·.path) = ["name", "office.city"] := rfl
  rw [paths] at listed
  exact ⟨plain, (listed "office.city").mp (by decide), mt (listed "office.head.name").mpr (by decide), once, rfl⟩

end ComputedFields
