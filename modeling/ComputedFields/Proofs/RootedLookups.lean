import ComputedFields.Proofs.CompiledOperand
import ComputedFields.Proofs.NameClash
import Mathlib.Data.List.Nodup

namespace ComputedFields

theorem nodup_eraseDups (paths : List (List String)) : paths.eraseDups.Nodup := by
  induction paths using List.reverseRecOn with
  | nil => exact List.nodup_nil
  | append_singleton earlier path ih =>
    rw [eraseDups_concat]
    split
    · exact ih
    · rename_i new
      rw [(List.perm_append_singleton _ _).nodup_iff, List.nodup_cons, List.mem_eraseDups]
      exact ⟨new, ih⟩

theorem Schema.follow?_concat {schema : Schema} {model : Model} {names : List String} {last : String}
    {chain : List Hop} (followed : schema.follow? model (names ++ [last]) = some chain) :
    ∃ earlier hop, chain = earlier ++ [hop] ∧ schema.follow? model names = some earlier ∧
      schema.hop (reached model earlier) last = .ok hop := by
  induction names generalizing model chain with
  | nil =>
    obtain ⟨hop, none, atLast, done, rfl⟩ := Schema.follow?_cons_eq_some followed
    cases done
    exact ⟨[], hop, rfl, rfl, atLast⟩
  | cons name rest ih =>
    obtain ⟨hop, more, first, later, rfl⟩ := Schema.follow?_cons_eq_some followed
    obtain ⟨earlier, final, rfl, behind, atLast⟩ := ih later
    refine ⟨hop :: earlier, final, rfl, ?_, ?_⟩
    · rw [Schema.follow?_cons first, behind, Option.map_some]
    · rw [reached_cons]
      exact atLast

/-- Where the lookup of a path starts and what it is: the last relation, from where the others have led. -/
theorem Scope.lookup?_concat_eq_some {scope : Scope} {path : List String} {name : String} {lookup : Lookup}
    (found : scope.lookup? (path ++ [name]) = some lookup) :
    ∃ root earlier hop, scope.schema.model? scope.root = some root ∧
      scope.schema.follow? root path = some earlier ∧ hop.model = reached root earlier ∧ hop.field.name = name ∧
        lookup = Lookup.ofHop (path ++ [name]) (Lookup.through path) hop := by
  obtain ⟨last, atLast, rfl⟩ := Option.map_eq_some_iff.mp found
  obtain ⟨chain, followed, ends⟩ := Option.bind_eq_some_iff.mp atLast
  obtain ⟨root, atRoot, followed⟩ := Option.bind_eq_some_iff.mp followed
  obtain ⟨earlier, hop, rfl, behind, step⟩ := Schema.follow?_concat followed
  rw [List.getLast?_concat] at ends
  obtain rfl := Option.some.inj ends
  obtain ⟨owner, field, _⟩ := Schema.hop_ok step
  refine ⟨root, earlier, hop, atRoot, behind, owner, Model.field?_name field, ?_⟩
  rw [List.dropLast_concat]

namespace Lookup

/-- A name grows by an underscore and the next relation, so it begins with the name of its parent. -/
theorem nameOf_concat {path : List String} (proper : path ≠ []) (name : String) :
    nameOf (path ++ [name]) = nameOf path ++ "_" ++ name := by
  rw [nameOf, nameOf, Text.join_append proper (List.cons_ne_nil _ _)]
  simp only [Text.join, String.append_assoc]

theorem through_eq_none_iff {path : List String} : through path = none ↔ path = [] := by
  unfold through
  split <;> simp [*]

theorem through_eq_some_iff {path : List String} {name : String} :
    through path = some name ↔ path ≠ [] ∧ nameOf path = name := by
  unfold through
  split <;> simp [*]

/-- Lookups that lead away from the model `root`: no two have the same name, one without a parent starts at the root,
and any other one starts where a lookup in front of it has led. -/
structure Rooted (root : String) (lookups : List Lookup) : Prop where
  distinct : (lookups.map (·.name)).Nodup
  first : ∀ lookup ∈ lookups, lookup.parent = none →
    lookup.fromModel = root ∧ lookup.name = reserved ++ lookup.localField
  onward : ∀ (index : Nat) (lookup : Lookup) (parent : String), lookups[index]? = some lookup →
    lookup.parent = some parent → lookup.name = parent ++ "_" ++ lookup.localField ∧
      ∃ earlier < index, ∃ before, lookups[earlier]? = some before ∧ before.name = parent ∧
        before.foreignModel = lookup.fromModel

namespace Table

/-- The entries stay as they are, and further ones may stand behind them. -/
def GrowsTo (table grown : Table) : Prop := table.entries <+: grown.entries

theorem GrowsTo.lookups {table grown : Table} (grows : table.GrowsTo grown) : table.lookups <+: grown.lookups :=
  List.IsPrefix.map _ grows

theorem GrowsTo.trans {table middle grown : Table} (first : table.GrowsTo middle) (second : middle.GrowsTo grown) :
    table.GrowsTo grown :=
  List.IsPrefix.trans first second

theorem growsTo_of_registerHop {table grown : Table} {path : List String} {parent : Option String} {hop : Hop}
    (run : table.registerHop path parent hop = .ok grown) : table.GrowsTo grown := by
  rcases registerHop_grown run with rfl | rfl
  · exact List.prefix_refl _
  · exact List.prefix_append _ _

/-- A chain takes nothing away from a table, whether it is registered or refused on the way. -/
theorem growsTo_registerFrom (table : Table) (before : List String) (parent : Option String) (chain : List Hop) :
    table.GrowsTo (table.registerFrom before parent chain).2 := by
  induction chain generalizing table before parent with
  | nil => exact List.prefix_refl _
  | cons hop rest ih =>
    rw [registerFrom]
    cases run : table.registerHop (before ++ [hop.field.name]) parent hop with
    | error collision => exact List.prefix_refl _
    | ok grown => exact (growsTo_of_registerHop run).trans (ih grown _ _)

/-- A path of several relations stands behind the path without the last one. -/
def ParentsFirst (table : Table) : Prop :=
  ∀ (index : Nat) (path : List String) (name : String), table.paths[index]? = some (path ++ [name]) →
    path = [] ∨ path ∈ table.paths.take index

theorem ParentsFirst.empty : Table.empty.ParentsFirst := by
  intro index path name atIndex
  cases atIndex

/-- A new path goes to the end, behind the shorter one that it goes on from. -/
theorem ParentsFirst.registerHop {table grown : Table} (ordered : table.ParentsFirst) {before : List String}
    {name : String} (behind : before = [] ∨ before ∈ table.paths) {parent : Option String} {hop : Hop}
    (run : table.registerHop (before ++ [name]) parent hop = .ok grown) : grown.ParentsFirst := by
  rcases registerHop_grown run with rfl | rfl
  · exact ordered
  · intro index path last atIndex
    have paths : (⟨table.entries ++ [⟨before ++ [name], ofHop (before ++ [name]) parent hop⟩]⟩ : Table).paths =
        table.paths ++ [before ++ [name]] := by
      simp only [Table.paths, List.map_append, List.map_cons, List.map_nil]
    rw [paths] at atIndex ⊢
    rcases Nat.lt_or_ge index table.paths.length with inside | past
    · rw [List.getElem?_append_left inside] at atIndex
      rw [List.take_append_of_le_length inside.le]
      exact ordered index path last atIndex
    · rw [List.getElem?_append_right past, List.getElem?_singleton] at atIndex
      split at atIndex
      · rename_i zero
        obtain ⟨rfl, _⟩ := List.append_singleton_inj.mp (Option.some.inj atIndex)
        have last : index = table.paths.length := by omega
        rw [last, List.take_left]
        exact behind
      · cases atIndex

/-- While a chain is registered, the relations before the next one always have an entry. -/
theorem ParentsFirst.registerFrom {table grown : Table} {used : List (List String)} (ordered : table.ParentsFirst)
    (serves : table.Serves used) {before : List String} (behind : before = [] ∨ before ∈ table.paths)
    {parent result : Option String} {chain : List Hop}
    (run : table.registerFrom before parent chain = (.ok result, grown)) : grown.ParentsFirst := by
  induction chain generalizing table used before parent with
  | nil =>
    cases run
    exact ordered
  | cons hop rest ih =>
    obtain ⟨middle, first, later⟩ := registerFrom_cons_ok.mp run
    have proper : before ++ [hop.field.name] ≠ [] := List.append_ne_nil_of_right_ne_nil _ (List.cons_ne_nil _ _)
    have served := serves.registerHop proper first
    have entered : before ++ [hop.field.name] ∈ middle.paths := by
      rw [served.paths, List.mem_eraseDups]
      exact List.mem_append_right _ (List.mem_singleton_self _)
    exact ih (ordered.registerHop behind first) served (Or.inr entered) later

/-- No two lookups have the same name. Entries are for different paths, and these are apart. -/
theorem Serves.nodup_names {table : Table} {used : List (List String)} (serves : table.Serves used) :
    (table.lookups.map (·.name)).Nodup := by
  have names : table.lookups.map (·.name) = used.eraseDups.map nameOf := by
    rw [← serves.paths]
    simp only [Table.lookups, Table.paths, List.map_map]
    exact List.map_congr_left serves.named
  rw [names]
  refine (nodup_eraseDups used).map_on fun path member other member' same => ?_
  rw [List.mem_eraseDups] at member member'
  exact serves.apart path member other member' (nameOf_inj.mp same)

/-- The lookups of a table and the paths that they are for stand in the same places. -/
theorem Describes.lookup_at_iff {table : Table} {scope : Scope} (described : table.Describes scope) {index : Nat}
    {lookup : Lookup} :
    table.lookups[index]? = some lookup ↔
      ∃ path, table.paths[index]? = some path ∧ scope.lookup? path = some lookup := by
  have same : (table.lookups.map some)[index]? = (table.paths.map scope.lookup?)[index]? := by
    rw [described.lookups]
  rw [List.getElem?_map, List.getElem?_map] at same
  constructor
  · intro atLookup
    rw [atLookup, Option.map_some] at same
    exact Option.map_eq_some_iff.mp same.symm
  · rintro ⟨path, atPath, found⟩
    rw [atPath, Option.map_some, found] at same
    obtain ⟨_, atLookup, equal⟩ := Option.map_eq_some_iff.mp same
    rwa [Option.some.inj equal] at atLookup

namespace Represents

variable {table grown : Table} {scope : Scope} {used : List (List String)}

/-- Where a lookup starts and what it is called: the last relation of its path, from where the others have led. -/
theorem lookup_at (represents : table.Represents scope used) {index : Nat} {lookup : Lookup}
    (atIndex : table.lookups[index]? = some lookup) :
    ∃ path name root earlier hop, table.paths[index]? = some (path ++ [name]) ∧
      scope.schema.model? scope.root = some root ∧ scope.schema.follow? root path = some earlier ∧
        hop.model = reached root earlier ∧ hop.field.name = name ∧
          lookup = ofHop (path ++ [name]) (through path) hop := by
  obtain ⟨whole, atPath, found⟩ := represents.describes.lookup_at_iff.mp atIndex
  have inUse : whole ∈ used := by
    rw [← List.mem_eraseDups, ← represents.serves.paths]
    exact List.mem_of_getElem? atPath
  obtain ⟨path, name, rfl⟩ := (List.eq_nil_or_concat' whole).resolve_left (represents.serves.proper whole inUse)
  obtain ⟨root, earlier, hop, description⟩ := Scope.lookup?_concat_eq_some found
  exact ⟨path, name, root, earlier, hop, atPath, description⟩

/-- The lookups lead away from the root because the paths do that they stand for. -/
theorem rooted (represents : table.Represents scope used) (ordered : table.ParentsFirst) :
    Rooted scope.root table.lookups := by
  refine ⟨represents.serves.nodup_names, ?_, ?_⟩
  · intro lookup member parentless
    obtain ⟨index, atIndex⟩ := List.mem_iff_getElem?.mp member
    obtain ⟨path, name, root, earlier, hop, _, atRoot, behind, owner, named, rfl⟩ := represents.lookup_at atIndex
    obtain rfl := through_eq_none_iff.mp parentless
    cases behind
    have start : hop.model.name = scope.root := by
      rw [owner]
      exact Schema.model?_name atRoot
    have called : nameOf ([] ++ [name]) = reserved ++ hop.field.name := by
      rw [named]
      rfl
    exact ⟨start, called⟩
  · intro index lookup parent atIndex isChild
    obtain ⟨path, name, root, earlier, hop, atPath, atRoot, behind, owner, named, rfl⟩ := represents.lookup_at atIndex
    obtain ⟨proper, rfl⟩ := through_eq_some_iff.mp isChild
    have called : nameOf (path ++ [name]) = nameOf path ++ "_" ++ hop.field.name := by
      rw [named]
      exact nameOf_concat proper name
    -- The path without its last relation has a lookup of its own further up, and that leads to the same model.
    obtain ⟨before, bound, atBefore⟩ :=
      List.mem_take_iff_getElem.mp ((ordered index path name atPath).resolve_left proper)
    obtain ⟨lookup, found, label, leads⟩ := Scope.lookup?_of_followed atRoot behind proper
    have here : table.lookups[before]? = some lookup :=
      represents.describes.lookup_at_iff.mpr ⟨path, List.getElem?_eq_some_iff.mpr ⟨by omega, atBefore⟩, found⟩
    have continued : lookup.foreignModel = hop.model.name := by
      rw [owner]
      exact (Schema.model?_name leads).symm
    exact ⟨called, before, by omega, lookup, here, label, continued⟩

/-- The name that a chain is answered with is that of a lookup to the model where the chain ends. -/
theorem answered (represents : table.Represents scope used) {path : String} {resolved : ResolvedPath}
    (found : scope.schema.resolve scope.root path = .ok resolved) {name : String}
    (run : table.registerChain resolved.chain = (.ok (some name), grown)) :
    ∃ lookup ∈ grown.lookups, lookup.name = name ∧
      resolved.chain.getLast?.map (·.target.name) = some lookup.foreignModel := by
  obtain ⟨_, atRoot, followed, _⟩ := Schema.resolve_ok_iff.mp found
  obtain ⟨grew, through⟩ := represents.registerChain found run
  obtain ⟨proper, rfl⟩ := through_eq_some_iff.mp through.symm
  have inUse : relationNames path ∈ used ++ (relationNames path).inits.tail :=
    List.mem_append_right _ (mem_tail_inits.mpr ⟨proper, List.prefix_refl _⟩)
  obtain ⟨entry, member, segments⟩ := grew.serves.entry_of_used inUse
  have meant := grew.describes entry member
  obtain ⟨lookup, atPath, called, leads⟩ := Scope.lookup?_of_followed atRoot followed proper
  rw [segments, atPath] at meant
  obtain rfl := Option.some.inj meant
  obtain ⟨before, last, split⟩ := (List.eq_nil_or_concat' (relationNames path)).resolve_left proper
  rw [split] at followed
  obtain ⟨earlier, hop, ends, _⟩ := Schema.follow?_concat followed
  rw [ends, reached_concat] at leads
  refine ⟨entry.lookup, List.mem_map_of_mem member, called, ?_⟩
  rw [ends, List.getLast?_concat, Option.map_some, Schema.model?_name leads]

end Represents

/-- The table after chains have been asked for one after the other. A chain that is refused leaves what it has
registered. -/
def afterChains (chains : List (List Hop)) : Table :=
  chains.foldl (fun table chain => (table.registerChain chain).2) .empty

theorem afterChains_concat (chains : List (List Hop)) (chain : List Hop) :
    afterChains (chains ++ [chain]) = ((afterChains chains).registerChain chain).2 := by
  simp only [afterChains, List.foldl_append, List.foldl_cons, List.foldl_nil]

end Table

end Lookup

/-- The relations in front of some field that can be reached from the root. -/
def Scope.Leads (scope : Scope) (chain : List Hop) : Prop :=
  ∃ path resolved, scope.schema.resolve scope.root path = .ok resolved ∧ resolved.chain = chain

/-- What one chain does to a table that others have built: the paths in use grow, and parents stay in front. -/
theorem Lookup.Table.Represents.afterChain {table : Table} {scope : Scope} {used : List (List String)}
    (represents : table.Represents scope used) (ordered : table.ParentsFirst) {chain : List Hop}
    (leads : scope.Leads chain) :
    ∃ used', (table.registerChain chain).2.Represents scope used' ∧ (table.registerChain chain).2.ParentsFirst := by
  obtain ⟨path, resolved, found, rfl⟩ := leads
  obtain ⟨done, result, _, registered, after⟩ := represents.after_registerChain found
  exact ⟨_, after, ordered.registerFrom represents.serves (Or.inl rfl) registered⟩

/-- Whatever chains were asked for, refused ones included, the table stands for the paths that it has taken in. -/
theorem Lookup.Table.afterChains_represents {scope : Scope} {chains : List (List Hop)}
    (led : ∀ chain ∈ chains, scope.Leads chain) :
    ∃ used, (afterChains chains).Represents scope used ∧ (afterChains chains).ParentsFirst := by
  induction chains using List.reverseRecOn with
  | nil => exact ⟨[], .empty scope, .empty⟩
  | append_singleton earlier chain ih =>
    obtain ⟨used, represents, ordered⟩ := ih fun other member => led other (List.mem_append_left _ member)
    have last := led chain (List.mem_append_right _ (List.mem_singleton_self chain))
    rw [afterChains_concat]
    exact represents.afterChain ordered last

/-- Whatever chains have been asked for, one more chain only adds lookups behind those that are there. Afterwards all
lookups lead away from the root, and the name that the chain is answered with is that of a lookup to the model where it
ends. -/
theorem registered_lookups_rooted {scope : Scope} {chains : List (List Hop)} {chain : List Hop}
    (led : ∀ other ∈ chains, scope.Leads other) (leads : scope.Leads chain) :
    (Lookup.Table.afterChains chains).lookups <+: (Lookup.Table.afterChains (chains ++ [chain])).lookups ∧
      Lookup.Rooted scope.root (Lookup.Table.afterChains (chains ++ [chain])).lookups ∧
      ∀ name, ((Lookup.Table.afterChains chains).registerChain chain).1 = .ok (some name) →
        ∃ lookup ∈ (Lookup.Table.afterChains (chains ++ [chain])).lookups, lookup.name = name ∧
          chain.getLast?.map (·.target.name) = some lookup.foreignModel := by
  obtain ⟨used, represents, ordered⟩ := Lookup.Table.afterChains_represents led
  obtain ⟨_, represents', ordered'⟩ := represents.afterChain ordered leads
  rw [Lookup.Table.afterChains_concat]
  refine ⟨(Lookup.Table.growsTo_registerFrom _ [] none chain).lookups, represents'.rooted ordered', ?_⟩
  intro name answer
  obtain ⟨path, resolved, found, rfl⟩ := leads
  exact represents.answered found (Prod.ext answer rfl)

/-- The address of the customer is asked for, then that of the order, which is refused, and then the first one
again. -/
theorem deliveries_rooted :
    ∃ nested flat, Scope.deliveries.Leads nested ∧ Scope.deliveries.Leads flat ∧
      ((Lookup.Table.afterChains [nested]).registerChain flat).1 =
        .error ⟨"__calc_lookup_customer_address", "customer.address", "customer_address"⟩ ∧
      ((Lookup.Table.afterChains [nested, flat]).registerChain nested).1 = .ok (some "__calc_lookup_customer_address") ∧
      (Lookup.Table.afterChains [nested, flat]).lookups <+: (Lookup.Table.afterChains [nested, flat, nested]).lookups ∧
      Lookup.Rooted "order" (Lookup.Table.afterChains [nested, flat, nested]).lookups ∧
      ∃ lookup ∈ (Lookup.Table.afterChains [nested, flat, nested]).lookups,
        lookup.name = "__calc_lookup_customer_address" ∧
          nested.getLast?.map (·.target.name) = some lookup.foreignModel := by
  have byNested : Scope.deliveries.Leads _ := ⟨"customer.address.city", _, rfl, rfl⟩
  have byFlat : Scope.deliveries.Leads _ := ⟨"customer_address.city", _, rfl, rfl⟩
  refine ⟨_, _, byNested, byFlat, rfl, rfl, ?_⟩
  have both := List.forall_mem_cons.mpr ⟨byNested, List.forall_mem_singleton.mpr byFlat⟩
  obtain ⟨grows, rooted, answered⟩ := registered_lookups_rooted both byNested
  exact ⟨grows, rooted, answered _ rfl⟩

end ComputedFields
