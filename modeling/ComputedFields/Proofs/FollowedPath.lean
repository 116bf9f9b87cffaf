import ComputedFields.Proofs.SplitJoin
import ComputedFields.Schema.Path

namespace ComputedFields

/-- The relations that a dotted path names in front of its field. -/
def relationNames (path : String) : List String := (Text.split '.' path).dropLast

def leafName (path : String) : String := (Text.split '.' path).getLast (Text.split_ne_nil '.' path)

theorem relationNames_append_leafName (path : String) :
    relationNames path ++ [leafName path] = Text.split '.' path :=
  List.dropLast_append_getLast (Text.split_ne_nil '.' path)

theorem relationNames_dotless {path name : String} (member : name ∈ relationNames path) : '.' ∉ name.toList :=
  Text.not_mem_of_mem_split (List.dropLast_subset _ member)

theorem leafName_dotless (path : String) : '.' ∉ (leafName path).toList :=
  Text.not_mem_of_mem_split (List.getLast_mem _)

/-- A path is its relations and its leaf, so that nothing else of its text can matter. -/
theorem path_eq_iff {path other : String} :
    path = other ↔ relationNames path = relationNames other ∧ leafName path = leafName other := by
  rw [← Text.split_inj (c := '.'), ← relationNames_append_leafName path, ← relationNames_append_leafName other]
  simp only [List.append_singleton_inj]

theorem Model.field?_name {model : Model} {name : String} {field : Field} (found : model.field? name = some field) :
    field.name = name := by
  simpa only [beq_iff_eq] using List.find?_some found

theorem Schema.model?_name {schema : Schema} {name : String} {model : Model}
    (found : schema.model? name = some model) : model.name = name := by
  simpa only [beq_iff_eq] using List.find?_some found

/-- The model that a chain of relations ends at. -/
def reached (model : Model) (chain : List Hop) : Model := (chain.getLast?.map (·.target)).getD model

theorem reached_cons (model : Model) (hop : Hop) (chain : List Hop) :
    reached model (hop :: chain) = reached hop.target chain := by
  cases chain with
  | nil => rfl
  | cons next rest => simp only [reached, List.getLast?_cons, Option.map_some, Option.getD_some]

theorem reached_concat (model : Model) (chain : List Hop) (hop : Hop) :
    reached model (chain ++ [hop]) = hop.target := by
  simp only [reached, List.getLast?_concat, Option.map_some, Option.getD_some]

theorem Field.isRelation_of_target? {field : Field} {name : String} (target : field.target? = some name) :
    field.type.isRelation = true := by
  by_contra other
  rw [Field.target?, if_neg other] at target
  cases target

/-- What a hop is: a field of its model, found by name, that leads to the model its target names. -/
theorem Schema.hop_ok_iff {schema : Schema} {model : Model} {segment : String} {hop : Hop} :
    schema.hop model segment = .ok hop ↔
      hop.model = model ∧ model.field? segment = some hop.field ∧ hop.field.target? = some hop.target.name ∧
        schema.model? hop.target.name = some hop.target := by
  constructor
  · intro run
    unfold Schema.hop at run
    split at run
    · cases run
    · rename_i field found
      split at run
      · split at run
        · cases run
        · rename_i name atName
          split at run
          · cases run
          · rename_i target atTarget
            cases run
            rw [Schema.model?_name atTarget]
            exact ⟨rfl, found, atName, atTarget⟩
      · cases run
  · rintro ⟨rfl, found, atName, atTarget⟩
    simp only [Schema.hop, found, Field.isRelation_of_target? atName, if_true, atName, atTarget]

/-- What is known of a hop that was found: it starts at the model, takes the first field of the given name, and ends at
the model that the schema has under the target's name. -/
theorem Schema.hop_ok {schema : Schema} {model : Model} {segment : String} {hop : Hop}
    (run : schema.hop model segment = .ok hop) :
    hop.model = model ∧ model.field? segment = some hop.field ∧
      schema.model? hop.target.name = some hop.target := by
  obtain ⟨owner, found, _, atTarget⟩ := Schema.hop_ok_iff.mp run
  exact ⟨owner, found, atTarget⟩

namespace Schema

/-- The relations that names lead through from a model on, if all of them are relations. -/
def follow? (schema : Schema) (model : Model) : List String → Option (List Hop)
  | [] => some []
  | name :: rest =>
    match schema.hop model name with
    | .error _ => none
    | .ok hop => (schema.follow? hop.target rest).map (hop :: ·)

theorem follow?_cons {schema : Schema} {model : Model} {name : String} {hop : Hop}
    (first : schema.hop model name = .ok hop) (rest : List String) :
    schema.follow? model (name :: rest) = (schema.follow? hop.target rest).map (hop :: ·) := by
  rw [follow?]
  simp only [first]

theorem follow?_cons_eq_some {schema : Schema} {model : Model} {name : String} {rest : List String}
    {chain : List Hop} (followed : schema.follow? model (name :: rest) = some chain) :
    ∃ hop more, schema.hop model name = .ok hop ∧ schema.follow? hop.target rest = some more ∧
      chain = hop :: more := by
  cases first : schema.hop model name with
  | error =>
    rw [follow?] at followed
    simp only [first, reduceCtorEq] at followed
  | ok hop =>
    rw [follow?_cons first] at followed
    obtain ⟨more, later, rfl⟩ := Option.map_eq_some_iff.mp followed
    exact ⟨hop, more, rfl, later, rfl⟩

/-- A followed chain carries the names that it was followed by, so these need not be kept beside it. -/
theorem follow?_names {schema : Schema} {model : Model} {names : List String} {chain : List Hop}
    (followed : schema.follow? model names = some chain) : chain.map (·.field.name) = names := by
  induction names generalizing model chain with
  | nil => cases followed; rfl
  | cons name rest ih =>
    obtain ⟨hop, more, first, later, rfl⟩ := follow?_cons_eq_some followed
    rw [List.map_cons, ih later, Model.field?_name (hop_ok first).2.1]

/-- A chain can be left early. What was followed by then is what the shorter list of names leads to. -/
theorem follow?_of_prefix {schema : Schema} {model : Model} {names : List String} {chain done : List Hop}
    (followed : schema.follow? model names = some chain) (shorter : done <+: chain) :
    schema.follow? model (done.map (·.field.name)) = some done := by
  induction done generalizing model names chain with
  | nil => rfl
  | cons hop done ih =>
    cases names with
    | nil =>
      cases followed
      exact absurd (List.prefix_nil.mp shorter) (List.cons_ne_nil _ _)
    | cons name rest =>
      obtain ⟨first, more, atFirst, later, rfl⟩ := follow?_cons_eq_some followed
      obtain ⟨rfl, remaining⟩ := List.cons_prefix_cons.mp shorter
      have named := Model.field?_name (hop_ok atFirst).2.1
      rw [List.map_cons, named, follow?_cons atFirst, ih later remaining]
      rfl

/-- Every target on the way is the first model of its name in the schema. A later one of the same name is never
reached. -/
theorem follow?_target {schema : Schema} {model : Model} {names : List String} {chain : List Hop} {hop : Hop}
    (followed : schema.follow? model names = some chain) (member : hop ∈ chain) :
    schema.model? hop.target.name = some hop.target := by
  induction names generalizing model chain with
  | nil => cases followed; cases member
  | cons name rest ih =>
    obtain ⟨next, more, first, later, rfl⟩ := follow?_cons_eq_some followed
    rcases List.mem_cons.mp member with rfl | member
    · exact (hop_ok first).2.2
    · exact ih later member

theorem follow?_append {schema : Schema} {model : Model} {names more : List String} {chain : List Hop}
    (followed : schema.follow? model names = some chain) :
    schema.follow? model (names ++ more) = (schema.follow? (reached model chain) more).map (chain ++ ·) := by
  induction names generalizing model chain with
  | nil => cases followed; simp [reached]
  | cons name rest ih =>
    obtain ⟨hop, tail, first, later, rfl⟩ := follow?_cons_eq_some followed
    rw [List.cons_append, follow?_cons first, reached_cons, ih later, Option.map_map]
    rfl

theorem walk_singleton {schema : Schema} {model : Model} {last : String} {chain : List Hop} {leaf : Field} :
    schema.walk model [last] = .ok (chain, leaf) ↔ chain = [] ∧ model.field? last = some leaf := by
  rw [walk]
  cases model.field? last with
  | none => simp only [reduceCtorEq, and_false]
  | some field => simp only [Except.ok.injEq, Prod.mk.injEq, Option.some.injEq, eq_comm]

theorem walk_cons {schema : Schema} {model : Model} {name : String} {rest : List String} (more : rest ≠ [])
    {chain : List Hop} {leaf : Field} :
    schema.walk model (name :: rest) = .ok (chain, leaf) ↔
      ∃ hop tail, schema.hop model name = .ok hop ∧ schema.walk hop.target rest = .ok (tail, leaf) ∧
        chain = hop :: tail := by
  obtain ⟨next, others, rfl⟩ := List.exists_cons_of_ne_nil more
  rw [walk]
  cases schema.hop model name with
  | error => simp only [reduceCtorEq, false_and, exists_false]
  | ok hop =>
    simp only [Except.ok.injEq, exists_and_left, exists_eq_left']
    cases schema.walk hop.target (next :: others) with
    | error => simp only [reduceCtorEq, false_and, exists_false]
    | ok result =>
      obtain ⟨tail, field⟩ := result
      simp only [Except.ok.injEq, Prod.mk.injEq]
      constructor
      · rintro ⟨rfl, rfl⟩
        exact ⟨tail, ⟨rfl, rfl⟩, rfl⟩
      · rintro ⟨_, ⟨rfl, rfl⟩, rfl⟩
        exact ⟨rfl, rfl⟩

/-- A walk follows the relations in front and then takes the field at the end. -/
theorem walk_ok_iff {schema : Schema} {model : Model} {names : List String} {last : String} {chain : List Hop}
    {leaf : Field} :
    schema.walk model (names ++ [last]) = .ok (chain, leaf) ↔
      schema.follow? model names = some chain ∧ (reached model chain).field? last = some leaf := by
  induction names generalizing model chain with
  | nil =>
    rw [List.nil_append, walk_singleton, follow?, Option.some.injEq, eq_comm]
    refine and_congr_right ?_
    rintro rfl
    rfl
  | cons name rest ih =>
    rw [List.cons_append, walk_cons (List.append_ne_nil_of_right_ne_nil _ (List.cons_ne_nil _ _))]
    constructor
    · rintro ⟨hop, tail, first, later, rfl⟩
      obtain ⟨followed, atLeaf⟩ := ih.mp later
      rw [follow?_cons first, followed, reached_cons]
      exact ⟨rfl, atLeaf⟩
    · rintro ⟨followed, atLeaf⟩
      obtain ⟨hop, tail, first, later, rfl⟩ := follow?_cons_eq_some followed
      rw [reached_cons] at atLeaf
      exact ⟨hop, tail, first, ih.mpr ⟨later, atLeaf⟩, rfl⟩

/-- A path resolves exactly if it is not blank, its root exists, its relations can be followed and its leaf is a
field of the model they end at. -/
theorem resolve_ok_iff {schema : Schema} {root path : String} {resolved : ResolvedPath} :
    schema.resolve root path = .ok resolved ↔
      Text.allBlank path = false ∧ schema.model? root = some resolved.root ∧
        schema.follow? resolved.root (relationNames path) = some resolved.chain ∧
          (reached resolved.root resolved.chain).field? (leafName path) = some resolved.leaf := by
  rw [resolve, ← walk_ok_iff, relationNames_append_leafName]
  cases Text.allBlank path with
  | true => simp only [if_true, reduceCtorEq, false_and]
  | false =>
    simp only [Bool.false_eq_true, if_false, true_and]
    cases schema.model? root with
    | none => simp only [reduceCtorEq, false_and]
    | some model =>
      simp only [Option.some.injEq]
      constructor
      · intro run
        cases walked : schema.walk model (Text.split '.' path) with
        | error => simp only [walked, reduceCtorEq] at run
        | ok result =>
          simp only [walked, Except.ok.injEq] at run
          subst run
          exact ⟨rfl, walked⟩
      · rintro ⟨rfl, walked⟩
        simp only [walked]

end Schema

end ComputedFields
