import ComputedFields.Proofs.DescribedTable

namespace ComputedFields

/-- The error of a computation that failed. -/
def failure? {ε α : Type} : Except ε α → Option ε
  | .ok _ => none
  | .error e => some e

theorem failure?_eq_none_iff {ε α : Type} {result : Except ε α} : failure? result = none ↔ ∃ a, result = .ok a := by
  cases result with
  | ok a => simp only [failure?, Except.ok.injEq, exists_eq']
  | error e => simp only [failure?, reduceCtorEq, exists_false]

theorem failure?_eq_some_iff {ε α : Type} {result : Except ε α} {e : ε} :
    failure? result = some e ↔ result = .error e := by
  cases result with
  | ok a => simp only [failure?, reduceCtorEq]
  | error e' => simp only [failure?, Option.some.injEq, Except.error.injEq]

namespace Lookup

/-- Another path than `path` is in use under the same name. -/
def Clashes (used : List (List String)) (path : List String) : Prop :=
  ∃ other ∈ used, other ≠ path ∧ nameOf other = nameOf path

instance (used : List (List String)) (path : List String) : Decidable (Clashes used path) :=
  inferInstanceAs (Decidable (∃ other ∈ used, other ≠ path ∧ nameOf other = nameOf path))

/-- Paths are asked for one after the other. The first one that clashes gives the name. -/
def clash? (used : List (List String)) : List (List String) → Option String
  | [] => none
  | path :: rest => if Clashes used path then some (nameOf path) else clash? (used ++ [path]) rest

/-- For paths that are apart, staying apart with one more means that this one does not clash. -/
theorem Apart.concat_iff_not_clashes {paths : List (List String)} {path : List String} (apart : Apart paths) :
    Apart (paths ++ [path]) ↔ ¬ Clashes paths path := by
  rw [apart.concat_iff, Clashes]
  simp only [← nameOf_inj]
  constructor
  · rintro alone ⟨other, member, different, same⟩
    exact different (alone other member same)
  · intro none other member same
    by_contra different
    exact none ⟨other, member, different, same⟩

theorem Clashes.mono {used more : List (List String)} {path : List String} (clashes : Clashes used path)
    (included : used ⊆ more) : Clashes more path := by
  obtain ⟨other, member, different, same⟩ := clashes
  exact ⟨other, included member, different, same⟩

theorem append_subset_append {used more : List (List String)} (included : used ⊆ more) (path : List String) :
    used ++ [path] ⊆ more ++ [path] :=
  List.append_subset.mpr ⟨fun _ member => List.mem_append_left _ (included member), List.subset_append_right _ _⟩

/-- Only which paths are in use matters, not how often or in which order. -/
theorem clash?_congr {used more : List (List String)} (included : used ⊆ more) (covered : more ⊆ used)
    (asked : List (List String)) : clash? used asked = clash? more asked := by
  induction asked generalizing used more with
  | nil => rfl
  | cons path rest ih =>
    have same : Clashes used path ↔ Clashes more path := ⟨(·.mono included), (·.mono covered)⟩
    simp only [clash?, same]
    rw [ih (append_subset_append included path) (append_subset_append covered path)]

/-- What is asked for in two parts clashes in the first part, or else in the second, with the first part then in use. -/
theorem clash?_append (used first second : List (List String)) :
    clash? used (first ++ second) = (clash? used first).or (clash? (used ++ first) second) := by
  induction first generalizing used with
  | nil => simp only [List.nil_append, clash?, Option.none_or, List.append_nil]
  | cons path rest ih =>
    rw [List.cons_append, clash?, clash?]
    split
    · rfl
    · rw [ih, List.append_assoc, List.singleton_append]

/-- With more paths in use a clash can only come earlier: the same one is met, or one with a path that was added. -/
theorem clash?_of_subset {used more : List (List String)} (included : used ⊆ more) (asked : List (List String)) :
    clash? more asked = clash? used asked ∨ ∃ path ∈ asked, ∃ other ∈ more, other ∉ used ∧ other ≠ path ∧
      nameOf other = nameOf path ∧ clash? more asked = some (nameOf path) := by
  induction asked generalizing used more with
  | nil => exact Or.inl rfl
  | cons path rest ih =>
    by_cases inMore : Clashes more path
    · by_cases inUsed : Clashes used path
      · simp only [clash?, inMore, inUsed, if_true, true_or]
      · obtain ⟨other, member, different, same⟩ := inMore
        refine Or.inr ⟨path, List.mem_cons_self .., other, member, ?_, different, same, ?_⟩
        · exact fun old => inUsed ⟨other, old, different, same⟩
        · exact if_pos ⟨other, member, different, same⟩
    · have inUsed : ¬ Clashes used path := fun clashes => inMore (clashes.mono included)
      simp only [clash?, inMore, inUsed, if_false]
      rcases ih (append_subset_append included path) with same | ⟨later, inRest, other, member, new, clash⟩
      · exact Or.inl same
      · -- The path just asked for is in use on both sides, so it is not the one that was added.
        have old : other ∈ more :=
          (List.mem_append.mp member).resolve_right fun own => new (List.mem_append_right _ own)
        exact Or.inr ⟨later, List.mem_cons_of_mem _ inRest, other, old,
          fun inside => new (List.mem_append_left _ inside), clash⟩

theorem clash?_eq_none_of_subset {used more asked : List (List String)} (included : used ⊆ more)
    (none : clash? more asked = none) : clash? used asked = Option.none := by
  rcases clash?_of_subset included asked with same | ⟨_, _, _, _, _, _, _, some⟩
  · exact same.symm.trans none
  · cases none.symm.trans some

namespace Table

theorem registerHop_error_name {table : Table} {path : List String} {parent : Option String} {hop : Hop}
    {collision : Collision} (run : table.registerHop path parent hop = .error collision) :
    collision.name = nameOf path := by
  unfold registerHop at run
  split at run
  · split at run
    · cases run
    · cases run
      rfl
  · cases run

/-- A chain is refused exactly for the first of its paths that clashes with those in use. -/
theorem Serves.failure?_registerFrom {table : Table} {used : List (List String)} (serves : table.Serves used)
    (before : List String) (parent : Option String) (chain : List Hop) :
    (failure? (table.registerFrom before parent chain).1).map Collision.name =
      clash? used (extensions before (chain.map (·.field.name))) := by
  induction chain generalizing table used before parent with
  | nil => rfl
  | cons hop rest ih =>
    have proper : before ++ [hop.field.name] ≠ [] := List.append_ne_nil_of_right_ne_nil _ (List.cons_ne_nil _ _)
    rw [Table.registerFrom, List.map_cons, extensions_cons, clash?]
    cases run : table.registerHop (before ++ [hop.field.name]) parent hop with
    | ok grown =>
      have served := serves.registerHop proper run
      rw [if_neg (serves.apart.concat_iff_not_clashes.mp served.apart)]
      exact ih served _ _
    | error collision =>
      have clashes : Clashes used (before ++ [hop.field.name]) := by
        by_contra none
        obtain ⟨grown, accepted⟩ :=
          serves.registerHop_exists proper parent hop (serves.apart.concat_iff_not_clashes.mpr none)
        cases run.symm.trans accepted
      rw [if_pos clashes]
      simp only [failure?, Option.map_some, registerHop_error_name run]

/-- The table has each path once, however often it was asked for. Clashes do not depend on that. -/
theorem Serves.clash?_paths {table : Table} {used : List (List String)} (serves : table.Serves used)
    (asked : List (List String)) : clash? table.paths asked = clash? used asked := by
  rw [serves.paths]
  have covered : used ⊆ used.eraseDups := fun _ member => List.mem_eraseDups.mpr member
  exact clash?_congr (fun _ member => List.mem_eraseDups.mp member) covered asked

end Table

end Lookup

/-- Orders whose customers have an address, and which have one themselves. The lookups of the two addresses go by one
name, so that a calculation can use either of them but not both. -/
def Scope.deliveries : Scope where
  root := "order"
  schema := ⟨[
    { name := "order", fields := [{ name := "customer", type := .relation, relation := some "customer" },
      { name := "customer_address", type := .relation, relation := some "address" }] },
    { name := "customer", fields := [{ name := "address", type := .relation, relation := some "address" }] },
    { name := "address", fields := [{ name := "city" }] }]⟩

end ComputedFields
