import ComputedFields.Proofs.FollowedPath
import Mathlib.Data.List.Chain

namespace ComputedFields

/-- The first item of a name, which is the one that counts where several have it. -/
structure FirstNamed {α : Type} (nameOf : α → String) (items : List α) (name : String) (item : α) : Prop where
  named : nameOf item = name
  first : ∃ before after, items = before ++ item :: after ∧ ∀ other ∈ before, nameOf other ≠ name

def NoneNamed {α : Type} (nameOf : α → String) (items : List α) (name : String) : Prop :=
  ∀ item ∈ items, nameOf item ≠ name

theorem FirstNamed.mem {α : Type} {nameOf : α → String} {items : List α} {name : String} {item : α}
    (first : FirstNamed nameOf items name item) : item ∈ items := by
  obtain ⟨before, after, rfl, _⟩ := first.first
  exact List.mem_append_right before (List.mem_cons_self ..)

/-- A search by name finds the first item of that name. Later ones may have it too. -/
theorem find?_eq_some_iff_first {α : Type} {nameOf : α → String} {items : List α} {name : String} {item : α} :
    items.find? (nameOf · == name) = some item ↔ FirstNamed nameOf items name item := by
  rw [List.find?_eq_some_iff_append]
  simp only [beq_iff_eq, Bool.not_eq_true', beq_eq_false_iff_ne]
  exact ⟨fun ⟨named, first⟩ => ⟨named, first⟩, fun ⟨named, first⟩ => ⟨named, first⟩⟩

theorem find?_eq_none_iff_none {α : Type} {nameOf : α → String} {items : List α} {name : String} :
    items.find? (nameOf · == name) = none ↔ NoneNamed nameOf items name := by
  simp only [List.find?_eq_none, beq_iff_eq, NoneNamed, ne_eq]

theorem Model.field?_eq_some_iff {model : Model} {name : String} {field : Field} :
    model.field? name = some field ↔ FirstNamed Field.name model.fields name field :=
  find?_eq_some_iff_first

theorem Model.field?_eq_none_iff {model : Model} {name : String} :
    model.field? name = none ↔ NoneNamed Field.name model.fields name :=
  find?_eq_none_iff_none

theorem Schema.model?_eq_some_iff {schema : Schema} {name : String} {model : Model} :
    schema.model? name = some model ↔ FirstNamed Model.name schema.models name model :=
  find?_eq_some_iff_first

theorem Schema.model?_eq_none_iff {schema : Schema} {name : String} :
    schema.model? name = none ↔ NoneNamed Model.name schema.models name :=
  find?_eq_none_iff_none

theorem FieldType.isRelation_iff {type : FieldType} : type.isRelation = true ↔ type = .relation := by
  cases type <;> simp [FieldType.isRelation]

theorem Field.target?_eq_some_iff {field : Field} {name : String} :
    field.target? = some name ↔ field.type = .relation ∧ field.relation = some name ∧ name ≠ "" := by
  rw [← FieldType.isRelation_iff, Field.target?]
  cases field.type.isRelation with
  | false => simp only [Bool.false_eq_true, if_false, reduceCtorEq, false_and]
  | true =>
    simp only [if_true, Option.filter_eq_some_iff, true_and, Bool.not_eq_true', ne_eq]
    rw [← Bool.not_eq_true, String.isEmpty_iff]

/-- The names that a path is made of, those of the relations in front and that of the field at the end. A name between
two dots may be empty, but has no dot of its own. -/
structure Dotted (path : String) (names : List String) (last : String) : Prop where
  joined : Text.join "." (names ++ [last]) = path
  dotless : ∀ name ∈ names ++ [last], '.' ∉ name.toList

/-- There is one way to cut a path at its dots, and it gives the relations and the name at the end. -/
theorem dotted_iff {path : String} {names : List String} {last : String} :
    Dotted path names last ↔ names = relationNames path ∧ last = leafName path := by
  have dot : "." = String.singleton '.' := rfl
  rw [← List.append_singleton_inj, relationNames_append_leafName]
  constructor
  · rintro ⟨rfl, dotless⟩
    have nonempty : names ++ [last] ≠ [] := List.append_ne_nil_of_right_ne_nil _ (List.cons_ne_nil _ _)
    rw [dot, Text.split_join nonempty dotless]
  · intro cut
    refine ⟨?_, ?_⟩
    · rw [cut, dot, Text.join_split]
    · rw [cut]
      exact fun _ member => Text.not_mem_of_mem_split member

namespace Schema

/-- What a segment in front of the last one has to name: a relation of the model, to a model that there is. -/
structure Leads (schema : Schema) (model : Model) (segment : String) (hop : Hop) : Prop where
  owner : hop.model = model
  field : FirstNamed Field.name model.fields segment hop.field
  relation : hop.field.type = .relation
  target : ∃ name, hop.field.relation = some name ∧ name ≠ "" ∧ FirstNamed Model.name schema.models name hop.target

/-- Why a segment in front of the last one leads nowhere. Every reason presumes that those before it do not apply. -/
inductive Stops (schema : Schema) (model : Model) (segment : String) : ResolveError → Prop
  | unknown : NoneNamed Field.name model.fields segment → Stops schema model segment (.fieldNotFound model.name segment)
  | value {field} : FirstNamed Field.name model.fields segment field → field.type ≠ .relation →
      Stops schema model segment (.notARelation model.name segment)
  | aimless {field} : FirstNamed Field.name model.fields segment field → field.type = .relation →
      field.relation = none ∨ field.relation = some "" → Stops schema model segment (.missingTarget model.name segment)
  | dangling {field name} : FirstNamed Field.name model.fields segment field → field.type = .relation →
      field.relation = some name → name ≠ "" → NoneNamed Model.name schema.models name →
      Stops schema model segment (.modelNotFound name)

/-- Relations that lead on from one another, one for every name. -/
inductive Way (schema : Schema) : Model → List String → List Hop → Prop
  | nil {model} : Way schema model [] []
  | cons {model segment hop rest chain} : schema.Leads model segment hop → Way schema hop.target rest chain →
      Way schema model (segment :: rest) (hop :: chain)

/-- Why names lead to no field: the first relation that is none, or else a last name that no field has. -/
inductive Breaks (schema : Schema) (model : Model) (names : List String) (last : String) : ResolveError → Prop
  | before {done segment rest chain e} : names = done ++ segment :: rest → schema.Way model done chain →
      schema.Stops (reached model chain) segment e → Breaks schema model names last e
  | atLeaf {chain} : schema.Way model names chain → NoneNamed Field.name (reached model chain).fields last →
      Breaks schema model names last (.fieldNotFound (reached model chain).name last)

/-- What a path stands for, if all of its names stand for something. -/
structure Resolves (schema : Schema) (root path : String) (resolved : ResolvedPath) : Prop where
  filled : ∃ c ∈ path.toList, Text.isBlank c = false
  start : FirstNamed Model.name schema.models root resolved.root
  way : ∃ names last, Dotted path names last ∧ schema.Way resolved.root names resolved.chain ∧
    FirstNamed Field.name resolved.leafModel.fields last resolved.leaf

/-- The first thing that is wrong with a path, from left to right. -/
inductive Refuses (schema : Schema) (root path : String) : ResolveError → Prop
  | blank : (∀ c ∈ path.toList, Text.isBlank c = true) → Refuses schema root path .emptyPath
  | rootless : (∃ c ∈ path.toList, Text.isBlank c = false) → NoneNamed Model.name schema.models root →
      Refuses schema root path (.modelNotFound root)
  | broken {start names last e} : (∃ c ∈ path.toList, Text.isBlank c = false) →
      FirstNamed Model.name schema.models root start → Dotted path names last → schema.Breaks start names last e →
      Refuses schema root path e

variable {schema : Schema} {model : Model} {segment last : String} {names rest : List String} {hop : Hop}
  {chain : List Hop} {e : ResolveError}

theorem hop_ok_iff_leads : schema.hop model segment = .ok hop ↔ schema.Leads model segment hop := by
  rw [hop_ok_iff, Model.field?_eq_some_iff, Field.target?_eq_some_iff, model?_eq_some_iff]
  constructor
  · rintro ⟨owner, field, ⟨relation, named, nonempty⟩, found⟩
    exact ⟨owner, field, relation, _, named, nonempty, found⟩
  · rintro ⟨owner, field, relation, name, named, nonempty, found⟩
    obtain rfl := found.named
    exact ⟨owner, field, ⟨relation, named, nonempty⟩, found⟩

theorem stops_of_hop (run : schema.hop model segment = .error e) : schema.Stops model segment e := by
  unfold hop at run
  split at run
  · rename_i absent
    cases run
    exact .unknown (Model.field?_eq_none_iff.mp absent)
  · rename_i field found
    have first := Model.field?_eq_some_iff.mp found
    rw [first.named] at run
    split at run
    · rename_i relation
      rw [FieldType.isRelation_iff] at relation
      split at run
      · rename_i missing
        cases run
        refine .aimless first relation ?_
        cases aim : field.relation with
        | none => exact Or.inl rfl
        | some name =>
          by_contra other
          have nonempty : name ≠ "" := fun empty => other (Or.inr (congrArg some empty))
          rw [Field.target?_eq_some_iff.mpr ⟨relation, aim, nonempty⟩] at missing
          cases missing
      · rename_i name target
        obtain ⟨_, aim, nonempty⟩ := Field.target?_eq_some_iff.mp target
        split at run
        · rename_i absent
          cases run
          exact .dangling first relation aim nonempty (model?_eq_none_iff.mp absent)
        · cases run
    · rename_i other
      cases run
      exact .value first (mt FieldType.isRelation_iff.mpr other)

theorem hop_of_stops (stops : schema.Stops model segment e) : schema.hop model segment = .error e := by
  cases stops with
  | unknown absent => simp only [Schema.hop, Model.field?_eq_none_iff.mpr absent]
  | value first other =>
    have found := Model.field?_eq_some_iff.mpr first
    simp only [Schema.hop, found, mt FieldType.isRelation_iff.mp other, if_false, first.named, Bool.false_eq_true]
  | @aimless field first relation missing =>
    have found := Model.field?_eq_some_iff.mpr first
    have nowhere : field.target? = none := by
      rw [← Option.not_isSome_iff_eq_none, Option.isSome_iff_exists]
      rintro ⟨name, target⟩
      obtain ⟨_, aim, nonempty⟩ := Field.target?_eq_some_iff.mp target
      rcases missing with none | empty
      · exact Option.some_ne_none _ (aim.symm.trans none)
      · exact nonempty (Option.some.inj (aim.symm.trans empty))
    simp only [Schema.hop, found, FieldType.isRelation_iff.mpr relation, if_true, nowhere, first.named]
  | dangling first relation aim nonempty absent =>
    have found := Model.field?_eq_some_iff.mpr first
    have target := Field.target?_eq_some_iff.mpr ⟨relation, aim, nonempty⟩
    have missing := model?_eq_none_iff.mpr absent
    simp only [Schema.hop, found, FieldType.isRelation_iff.mpr relation, if_true, target, missing]

/-- A hop fails for one reason, and this is the first that applies in the order of the checks. -/
theorem hop_error_iff : schema.hop model segment = .error e ↔ schema.Stops model segment e :=
  ⟨stops_of_hop, hop_of_stops⟩

theorem follow?_eq_some_iff_way : schema.follow? model names = some chain ↔ schema.Way model names chain := by
  constructor
  · intro followed
    induction names generalizing model chain with
    | nil =>
      cases followed
      exact .nil
    | cons name rest ih =>
      obtain ⟨hop, more, first, later, rfl⟩ := follow?_cons_eq_some followed
      exact .cons (hop_ok_iff_leads.mp first) (ih later)
  · intro way
    induction way with
    | nil => rfl
    | cons leads _ ih => rw [follow?_cons (hop_ok_iff_leads.mpr leads), ih, Option.map_some]

theorem walk_cons_error (more : rest ≠ []) :
    schema.walk model (segment :: rest) = .error e ↔
      schema.hop model segment = .error e ∨
        ∃ hop, schema.hop model segment = .ok hop ∧ schema.walk hop.target rest = .error e := by
  obtain ⟨next, others, rfl⟩ := List.exists_cons_of_ne_nil more
  rw [walk]
  cases schema.hop model segment with
  | error wrong => simp only [Except.error.injEq, reduceCtorEq, false_and, exists_false, or_false]
  | ok hop =>
    simp only [reduceCtorEq, false_or, Except.ok.injEq, exists_eq_left']
    cases schema.walk hop.target (next :: others) with
    | error wrong => simp only [Except.error.injEq]
    | ok result => simp only [reduceCtorEq]

theorem breaks_nil : schema.Breaks model [] last e ↔
    NoneNamed Field.name model.fields last ∧ e = .fieldNotFound model.name last := by
  constructor
  · intro breaks
    cases breaks with
    | before split => exact absurd split.symm (List.append_ne_nil_of_right_ne_nil _ (List.cons_ne_nil _ _))
    | atLeaf way absent =>
      cases way
      exact ⟨absent, rfl⟩
  · rintro ⟨absent, rfl⟩
    exact .atLeaf .nil absent

/-- What goes wrong first goes wrong at the first name, or else after the relation that it leads through. -/
theorem breaks_cons : schema.Breaks model (segment :: rest) last e ↔
    schema.Stops model segment e ∨ ∃ hop, schema.Leads model segment hop ∧ schema.Breaks hop.target rest last e := by
  constructor
  · intro breaks
    cases breaks with
    | before split way stops =>
      cases way with
      | nil =>
        cases split
        exact Or.inl stops
      | cons leads later =>
        cases split
        rw [reached_cons] at stops
        exact Or.inr ⟨_, leads, .before rfl later stops⟩
    | atLeaf way absent =>
      cases way with
      | cons leads later =>
        rw [reached_cons] at absent ⊢
        exact Or.inr ⟨_, leads, .atLeaf later absent⟩
  · rintro (stops | ⟨hop, leads, breaks⟩)
    · have split : segment :: rest = [] ++ segment :: rest := rfl
      exact .before split .nil stops
    · cases breaks with
      | @before done wrong after _ _ split way stops =>
        have longer : segment :: rest = (segment :: done) ++ wrong :: after := congrArg (segment :: ·) split
        rw [← reached_cons model] at stops
        exact .before longer (.cons leads way) stops
      | atLeaf way absent =>
        rw [← reached_cons model] at absent ⊢
        exact .atLeaf (.cons leads way) absent

/-- A walk fails where its first bad name stands, with an error about the model that was reached by then. -/
theorem walk_error_iff : schema.walk model (names ++ [last]) = .error e ↔ schema.Breaks model names last e := by
  induction names generalizing model with
  | nil =>
    rw [breaks_nil, List.nil_append, walk, ← Model.field?_eq_none_iff]
    cases model.field? last with
    | none => simp only [Except.error.injEq, true_and, eq_comm]
    | some leaf => simp only [reduceCtorEq, false_and]
  | cons name rest ih =>
    have more : rest ++ [last] ≠ [] := List.append_ne_nil_of_right_ne_nil _ (List.cons_ne_nil _ _)
    rw [List.cons_append, walk_cons_error more, breaks_cons, hop_error_iff]
    simp only [ih, hop_ok_iff_leads]

/-- Resolving takes a path apart at its dots, so that nothing else of its text can be wrong. -/
theorem resolve_error_iff {root path : String} :
    schema.resolve root path = .error e ↔ schema.Refuses root path e := by
  have blank_iff : Text.allBlank path = true ↔ ∀ c ∈ path.toList, Text.isBlank c = true := List.all_eq_true
  have filled_iff : Text.allBlank path = false ↔ ∃ c ∈ path.toList, Text.isBlank c = false := by
    simp only [Text.allBlank, List.all_eq_false, Bool.not_eq_true]
  constructor
  · intro run
    unfold resolve at run
    split at run
    · rename_i blank
      cases run
      exact .blank (blank_iff.mp blank)
    · rename_i filled
      have filled := filled_iff.mp (eq_false_of_ne_true filled)
      split at run
      · rename_i absent
        cases run
        exact .rootless filled (model?_eq_none_iff.mp absent)
      · rename_i start found
        split at run
        · rename_i wrong walked
          cases run
          rw [← relationNames_append_leafName, walk_error_iff] at walked
          exact .broken filled (model?_eq_some_iff.mp found) (dotted_iff.mpr ⟨rfl, rfl⟩) walked
        · cases run
  · intro refuses
    cases refuses with
    | blank blank => simp only [resolve, blank_iff.mpr blank, if_true]
    | rootless filled absent =>
      simp only [resolve, filled_iff.mpr filled, Bool.false_eq_true, if_false, model?_eq_none_iff.mpr absent]
    | broken filled start dotted breaks =>
      obtain ⟨rfl, rfl⟩ := dotted_iff.mp dotted
      have walked := walk_error_iff.mpr breaks
      rw [relationNames_append_leafName] at walked
      simp only [resolve, filled_iff.mpr filled, Bool.false_eq_true, if_false, model?_eq_some_iff.mpr start, walked]

theorem resolve_ok_iff_resolves {root path : String} {resolved : ResolvedPath} :
    schema.resolve root path = .ok resolved ↔ schema.Resolves root path resolved := by
  rw [resolve_ok_iff, model?_eq_some_iff, follow?_eq_some_iff_way, Model.field?_eq_some_iff, Text.allBlank,
    List.all_eq_false]
  simp only [Bool.not_eq_true]
  constructor
  · rintro ⟨filled, start, way, leaf⟩
    exact ⟨filled, start, _, _, dotted_iff.mpr ⟨rfl, rfl⟩, way, leaf⟩
  · rintro ⟨filled, start, names, last, dotted, way, leaf⟩
    obtain ⟨rfl, rfl⟩ := dotted_iff.mp dotted
    exact ⟨filled, start, way, leaf⟩

/-- A way starts at its model and goes on, at every hop, where the hop before has come to. -/
theorem Way.contiguous (way : schema.Way model names chain) :
    (∀ hop ∈ chain.head?, hop.model = model) ∧ chain.IsChain fun hop next => next.model = hop.target := by
  induction way with
  | nil => exact ⟨fun _ none => (Option.not_mem_none _ none).elim, .nil⟩
  | cons leads _ ih =>
    refine ⟨?_, List.isChain_cons.mpr ih⟩
    rintro _ ⟨⟩
    exact leads.owner

end Schema

/-- A path is resolved exactly if all of its names stand for something, and is refused for the first that does not. What
it is resolved to starts at the root, has no gap, and has the path for its text. -/
theorem path_resolution_exact (schema : Schema) (root path : String) :
    (∀ resolved, schema.resolve root path = .ok resolved ↔ schema.Resolves root path resolved) ∧
    (∀ e, schema.resolve root path = .error e ↔ schema.Refuses root path e) ∧
    ∀ resolved, schema.resolve root path = .ok resolved →
      resolved.root.name = root ∧ (∀ hop ∈ resolved.chain.head?, hop.model = resolved.root) ∧
        (resolved.chain.IsChain fun hop next => next.model = hop.target) ∧
          resolved.leaf ∈ resolved.leafModel.fields ∧ resolved.text = path := by
  refine ⟨fun _ => Schema.resolve_ok_iff_resolves, fun _ => Schema.resolve_error_iff, ?_⟩
  intro resolved run
  obtain ⟨_, start, names, last, dotted, way, leaf⟩ := Schema.resolve_ok_iff_resolves.mp run
  obtain ⟨atRoot, contiguous⟩ := way.contiguous
  have relations := Schema.follow?_names (Schema.follow?_eq_some_iff_way.mpr way)
  have text : resolved.text = path := by
    rw [ResolvedPath.text, ResolvedPath.segments, relations, leaf.named, dotted.joined]
  exact ⟨start.named, atRoot, contiguous, leaf.mem, text⟩

/-- Customers who refer one another. An order leads to its customer under an empty name too. Of the two relations and of
the two models named after the customer, the second ones never count. -/
def Schema.referrals : Schema := ⟨[
  { name := "order", fields := [{ name := "customer", type := .relation, relation := some "customer" },
    { name := "customer", type := .relation, relation := some "agent" },
    { name := "", type := .relation, relation := some "customer" },
    { name := "agent", type := .relation, relation := some "agent" },
    { name := "basket", type := .relation, relation := some "" }] },
  { name := "customer", fields := [{ name := "rate", type := .number },
    { name := "referrer", type := .relation, relation := some "customer" }] },
  { name := "customer", fields := [{ name := "city" }] }]⟩

/-- An empty name is as good as any other if a relation has it. For each of the reasons there is a path that is
refused. -/
theorem referrals_resolved_exactly :
    (∃ resolved, Schema.referrals.resolve "order" ".referrer.referrer.rate" = .ok resolved ∧
      resolved.root.name = "order" ∧ (resolved.chain.IsChain fun hop next => next.model = hop.target) ∧
        resolved.leaf ∈ resolved.leafModel.fields ∧ resolved.text = ".referrer.referrer.rate") ∧
      Schema.referrals.Refuses "order" "\t " .emptyPath ∧
      Schema.referrals.Refuses "agent" "rate" (.modelNotFound "agent") ∧
      Schema.referrals.Refuses "order" "customer..rate" (.fieldNotFound "customer" "") ∧
      Schema.referrals.Refuses "order" "customer.rate.city" (.notARelation "customer" "rate") ∧
      Schema.referrals.Refuses "order" "basket.rate" (.missingTarget "order" "basket") ∧
      Schema.referrals.Refuses "order" "agent.rate" (.modelNotFound "agent") ∧
      Schema.referrals.Refuses "order" "customer.city" (.fieldNotFound "customer" "city") := by
  have exactly := path_resolution_exact Schema.referrals
  refine ⟨?_, ((exactly ..).2.1 _).mp rfl, ((exactly ..).2.1 _).mp rfl, ((exactly ..).2.1 _).mp rfl,
    ((exactly ..).2.1 _).mp rfl, ((exactly ..).2.1 _).mp rfl, ((exactly ..).2.1 _).mp rfl, ((exactly ..).2.1 _).mp rfl⟩
  obtain ⟨_, _, resolution⟩ := exactly "order" ".referrer.referrer.rate"
  obtain ⟨named, _, contiguous, leaf, text⟩ := resolution _ rfl
  exact ⟨_, rfl, named, contiguous, leaf, text⟩

end ComputedFields
