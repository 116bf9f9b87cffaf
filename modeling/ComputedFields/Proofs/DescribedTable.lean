import ComputedFields.Compile.Operand
import ComputedFields.Proofs.FollowedPath
import ComputedFields.Proofs.ServedTable

namespace ComputedFields

/-- The lookup that a path of relations stands for: its last hop, with the rest of the path as the parent. -/
def Scope.lookup? (scope : Scope) (path : List String) : Option Lookup :=
  (((scope.schema.model? scope.root).bind (scope.schema.follow? · path)).bind List.getLast?).map
    (Lookup.ofHop path (Lookup.through path.dropLast))

theorem Scope.lookup?_concat {scope : Scope} {root : Model} {path : List String} {name : String} {chain : List Hop}
    {hop : Hop} (atRoot : scope.schema.model? scope.root = some root)
    (followed : scope.schema.follow? root (path ++ [name]) = some (chain ++ [hop])) :
    scope.lookup? (path ++ [name]) = some (Lookup.ofHop (path ++ [name]) (Lookup.through path) hop) := by
  rw [Scope.lookup?, atRoot, Option.bind_some, followed, Option.bind_some, List.getLast?_concat, Option.map_some,
    List.dropLast_concat]

/-- Where the relations of a path can be followed, its lookup leads to the model that they reach. -/
theorem Scope.lookup?_of_followed {scope : Scope} {root : Model} {path : List String} {chain : List Hop}
    (atRoot : scope.schema.model? scope.root = some root) (followed : scope.schema.follow? root path = some chain)
    (proper : path ≠ []) :
    ∃ lookup, scope.lookup? path = some lookup ∧ lookup.name = Lookup.nameOf path ∧
      scope.schema.model? lookup.foreignModel = some (reached root chain) := by
  have nonempty : chain ≠ [] := by
    rintro rfl
    exact proper (Schema.follow?_names followed).symm
  obtain ⟨earlier, hop, rfl⟩ := (List.eq_nil_or_concat' chain).resolve_left nonempty
  refine ⟨Lookup.ofHop path (Lookup.through path.dropLast) hop, ?_, rfl, ?_⟩
  · rw [Scope.lookup?, atRoot, Option.bind_some, followed, Option.bind_some, List.getLast?_concat, Option.map_some]
  · rw [reached_concat]
    exact Schema.follow?_target followed (List.mem_append_right _ (List.mem_singleton_self hop))

namespace Lookup.Table

/-- Every lookup of the table is the one its path stands for, whichever path asked for it first. -/
def Describes (table : Table) (scope : Scope) : Prop :=
  ∀ entry ∈ table.entries, scope.lookup? entry.segments = some entry.lookup

theorem Describes.empty (scope : Scope) : Table.empty.Describes scope :=
  fun _ member => absurd member List.not_mem_nil

theorem Describes.lookups {table : Table} {scope : Scope} (described : table.Describes scope) :
    table.lookups.map some = table.paths.map scope.lookup? := by
  simp only [Table.lookups, Table.paths, List.map_map]
  exact List.map_congr_left fun entry member => (described entry member).symm

theorem registerHop_grown {table grown : Table} {path : List String} {parent : Option String} {hop : Hop}
    (run : table.registerHop path parent hop = .ok grown) :
    grown = table ∨ grown = ⟨table.entries ++ [⟨path, ofHop path parent hop⟩]⟩ := by
  unfold registerHop at run
  split at run
  · split at run
    · exact Or.inl (Except.ok.inj run).symm
    · cases run
  · exact Or.inr (Except.ok.inj run).symm

/-- An added lookup is right if it is the one that its path stands for. A lookup that is reused was right before. -/
theorem Describes.registerHop {table grown : Table} {scope : Scope} (described : table.Describes scope)
    {path : List String} {parent : Option String} {hop : Hop}
    (meant : scope.lookup? path = some (ofHop path parent hop))
    (run : table.registerHop path parent hop = .ok grown) : grown.Describes scope := by
  rcases registerHop_grown run with rfl | rfl
  · exact described
  · intro entry member
    rcases List.mem_append.mp member with old | last
    · exact described entry old
    · cases List.mem_singleton.mp last
      exact meant

/-- Registering what is left of a followed path keeps every lookup right, the reused ones included. -/
theorem Describes.registerFrom {table grown : Table} {scope : Scope} (described : table.Describes scope)
    {root : Model} (atRoot : scope.schema.model? scope.root = some root)
    {before : List String} {earlier chain : List Hop} {result : Option String}
    (behind : scope.schema.follow? root before = some earlier)
    (ahead : scope.schema.follow? (reached root earlier) (chain.map (·.field.name)) = some chain)
    (run : table.registerFrom before (through before) chain = (.ok result, grown)) : grown.Describes scope := by
  induction chain generalizing table before earlier with
  | nil =>
    cases run
    exact described
  | cons hop rest ih =>
    rw [List.map_cons] at ahead
    obtain ⟨next, more, first, later, same⟩ := Schema.follow?_cons_eq_some ahead
    cases same
    obtain ⟨middle, registered, remaining⟩ := registerFrom_cons_ok.mp run
    have followed : scope.schema.follow? root (before ++ [hop.field.name]) = some (earlier ++ [hop]) := by
      rw [Schema.follow?_append behind, Schema.follow?_cons first]
      rfl
    have meant := Scope.lookup?_concat atRoot followed
    rw [← through_concat] at remaining
    refine ih (described.registerHop meant registered) followed ?_ remaining
    rw [reached_concat]
    exact later

theorem Describes.registerChain {table grown : Table} {scope : Scope} (described : table.Describes scope)
    {root : Model} (atRoot : scope.schema.model? scope.root = some root) {names : List String} {chain : List Hop}
    (followed : scope.schema.follow? root names = some chain) {result : Option String}
    (run : table.registerChain chain = (.ok result, grown)) : grown.Describes scope := by
  have behind : scope.schema.follow? root [] = some [] := rfl
  have ahead : scope.schema.follow? (reached root []) (chain.map (·.field.name)) = some chain := by
    rw [Schema.follow?_names followed]
    exact followed
  exact described.registerFrom atRoot behind ahead run

end Lookup.Table

end ComputedFields
