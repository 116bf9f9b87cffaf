import ComputedFields.Proofs.SplitJoin
import ComputedFields.Schema.Lookup
import Mathlib.Data.List.Infix

/-- A last element is kept exactly if it was not there before. Tables grow in this way, so the inductions over what was
asked for use it. -/
theorem ComputedFields.eraseDups_concat {α : Type} [BEq α] [LawfulBEq α] (xs : List α) (x : α) :
    (xs ++ [x]).eraseDups = if x ∈ xs then xs.eraseDups else xs.eraseDups ++ [x] := by
  rw [List.eraseDups_append]
  by_cases member : x ∈ xs
  · simp [List.removeAll, member]
  · simp [List.removeAll, member, List.eraseDups_cons]

theorem ComputedFields.mem_tail_inits {path names : List String} :
    path ∈ names.inits.tail ↔ path ≠ [] ∧ path <+: names := by
  cases names with
  | nil => simp [List.prefix_nil]
  | cons name rest =>
    rw [List.inits_cons, List.tail_cons, List.mem_map]
    constructor
    · rintro ⟨start, member, rfl⟩
      exact ⟨List.cons_ne_nil _ _, (List.prefix_cons_inj name).mpr ((List.mem_inits _ _).mp member)⟩
    · rintro ⟨proper, start⟩
      obtain ⟨first, more, rfl⟩ := List.exists_cons_of_ne_nil proper
      obtain ⟨rfl, remaining⟩ := List.cons_prefix_cons.mp start
      exact ⟨more, (List.mem_inits _ _).mpr remaining, rfl⟩

namespace ComputedFields.Lookup

theorem nameOf_inj {path other : List String} :
    nameOf path = nameOf other ↔ Text.join "_" path = Text.join "_" other := by
  rw [nameOf, nameOf, ← String.toList_inj, ← String.toList_inj, String.toList_append, String.toList_append,
    List.append_cancel_left_eq]

/-- Of the paths in a list, no two different ones are the same when joined by underscores. -/
def Apart (paths : List (List String)) : Prop :=
  ∀ path ∈ paths, ∀ other ∈ paths, Text.join "_" path = Text.join "_" other → path = other

theorem Apart.left {paths more : List (List String)} (apart : Apart (paths ++ more)) : Apart paths :=
  fun path member other member' =>
    apart path (List.mem_append_left _ member) other (List.mem_append_left _ member')

/-- One more path has to be compared only with those in front of it, since these are apart already. -/
theorem Apart.concat_iff {paths : List (List String)} {path : List String} (apart : Apart paths) :
    Apart (paths ++ [path]) ↔ ∀ other ∈ paths, Text.join "_" other = Text.join "_" path → other = path := by
  constructor
  · intro all other member same
    exact all other (List.mem_append_left _ member) path (List.mem_append_right _ (List.mem_singleton_self _)) same
  · intro new first inFirst second inSecond same
    rcases List.mem_append.mp inFirst with old | last <;> rcases List.mem_append.mp inSecond with old' | last'
    · exact apart first old second old' same
    · cases List.mem_singleton.mp last'
      exact new first old same
    · cases List.mem_singleton.mp last
      exact (new second old' same.symm).symm
    · rw [List.mem_singleton.mp last, List.mem_singleton.mp last']

/-- The lookup that stands for a hop at the end of the relations `path`. -/
def ofHop (path : List String) (parent : Option String) (hop : Hop) : Lookup :=
  ⟨hop.model.name, hop.field.name, hop.target.name, nameOf path, hop.field.multiple, parent⟩

/-- The name of the lookup that relations lead through. Without relations there is none. -/
def through (path : List String) : Option String := if path = [] then none else some (nameOf path)

theorem through_concat (path : List String) (name : String) :
    through (path ++ [name]) = some (nameOf (path ++ [name])) :=
  if_neg (List.append_ne_nil_of_right_ne_nil _ (List.cons_ne_nil _ _))

/-- The relation paths that go on from `before` along `names`, the shortest first. -/
def extensions (before names : List String) : List (List String) := names.inits.tail.map (before ++ ·)

theorem extensions_cons (before : List String) (name : String) (rest : List String) :
    extensions before (name :: rest) = (before ++ [name]) :: extensions (before ++ [name]) rest := by
  have inits : rest.inits = [] :: rest.inits.tail := by cases rest <;> rfl
  rw [extensions, List.inits_cons, List.tail_cons, inits]
  simp only [extensions, List.map_cons, List.map_map, Function.comp_def, List.append_assoc, List.singleton_append]

namespace Table

def paths (table : Table) : List (List String) := table.entries.map (·.segments)

/-- The table after the relation paths `used` have been asked for, one after the other, and none was refused. -/
structure Serves (table : Table) (used : List (List String)) : Prop where
  paths : table.paths = used.eraseDups
  named : ∀ entry ∈ table.entries, entry.lookup.name = nameOf entry.segments
  proper : ∀ path ∈ used, path ≠ []
  apart : Apart used

theorem Serves.empty : Table.empty.Serves [] where
  paths := rfl
  named := fun _ member => absurd member List.not_mem_nil
  proper := fun _ member => absurd member List.not_mem_nil
  apart := fun _ member => absurd member List.not_mem_nil

theorem Serves.used_of_mem {table : Table} {used : List (List String)} (serves : table.Serves used) {entry : Entry}
    (member : entry ∈ table.entries) : entry.segments ∈ used := by
  rw [← List.mem_eraseDups, ← serves.paths]
  exact List.mem_map_of_mem member

theorem Serves.entry_of_used {table : Table} {used : List (List String)} (serves : table.Serves used)
    {path : List String} (member : path ∈ used) : ∃ entry ∈ table.entries, entry.segments = path := by
  rw [← List.mem_eraseDups, ← serves.paths] at member
  exact List.mem_map.mp member

/-- A path that was asked for before changes nothing. -/
theorem Serves.again {table : Table} {used : List (List String)} (serves : table.Serves used) {path : List String}
    (member : path ∈ used) : table.Serves (used ++ [path]) where
  paths := by rw [eraseDups_concat, if_pos member, serves.paths]
  named := serves.named
  proper := by
    intro other inside
    rcases List.mem_append.mp inside with old | last
    · exact serves.proper other old
    · rw [List.mem_singleton.mp last]
      exact serves.proper path member
  apart := serves.apart.concat_iff.mpr fun other inside same => serves.apart other inside path member same

/-- A path that is new and shares its name with no other is entered at the end, whatever parent and hop its lookup
has. -/
theorem Serves.fresh {table : Table} {used : List (List String)} (serves : table.Serves used) {path : List String}
    (proper : path ≠ []) (new : path ∉ used) (apart : Apart (used ++ [path])) (parent : Option String) (hop : Hop) :
    Serves ⟨table.entries ++ [⟨path, ofHop path parent hop⟩]⟩ (used ++ [path]) where
  paths := by
    rw [eraseDups_concat, if_neg new, ← serves.paths]
    simp only [Table.paths, List.map_append, List.map_cons, List.map_nil]
  named := by
    intro entry inside
    rcases List.mem_append.mp inside with old | last
    · exact serves.named entry old
    · cases List.mem_singleton.mp last
      rfl
  proper := by
    intro other inside
    rcases List.mem_append.mp inside with old | last
    · exact serves.proper other old
    · rw [List.mem_singleton.mp last]
      exact proper
  apart := apart

/-- Everything that asking for one more hop can do to a table. Comparing the dotted paths is enough, because the
names are equal by then. -/
theorem Serves.registerHop_cases {table : Table} {used : List (List String)} (serves : table.Serves used)
    {path : List String} (proper : path ≠ []) (parent : Option String) (hop : Hop) :
    (path ∈ used ∧ table.registerHop path parent hop = .ok table) ∨
      (path ∉ used ∧ Apart (used ++ [path]) ∧
        table.registerHop path parent hop = .ok ⟨table.entries ++ [⟨path, ofHop path parent hop⟩]⟩) ∨
      (¬ Apart (used ++ [path]) ∧ ∃ collision, table.registerHop path parent hop = .error collision) := by
  unfold registerHop
  cases found : table.find? (nameOf path) with
  | none =>
    have different : ∀ other ∈ used, Text.join "_" other ≠ Text.join "_" path := by
      intro other member same
      obtain ⟨entry, inside, rfl⟩ := serves.entry_of_used member
      have unnamed := List.find?_eq_none.mp found entry inside
      rw [serves.named entry inside, nameOf_inj.mpr same, beq_self_eq_true] at unnamed
      exact unnamed rfl
    refine Or.inr (Or.inl ⟨fun member => different path member rfl, ?_, rfl⟩)
    exact serves.apart.concat_iff.mpr fun other member same => absurd same (different other member)
  | some entry =>
    -- The entry has the name that is asked for; whether it has the path too is what the dotted paths decide.
    have inside : entry ∈ table.entries := List.mem_of_find?_eq_some found
    have used := serves.used_of_mem inside
    have same : Text.join "_" entry.segments = Text.join "_" path := by
      rw [← nameOf_inj, ← serves.named entry inside]
      simpa only [beq_iff_eq] using List.find?_some found
    by_cases dotted : entry.path = Text.join "." path
    · have equal := Text.join_pair_inj (serves.proper _ used) proper same dotted
      rw [equal] at used
      exact Or.inl ⟨used, if_pos dotted⟩
    · refine Or.inr (Or.inr ⟨?_, _, if_neg dotted⟩)
      intro apart
      have equal := serves.apart.concat_iff.mp apart entry.segments used same
      exact dotted (congrArg (Text.join ".") equal)

theorem Serves.registerHop {table grown : Table} {used : List (List String)} (serves : table.Serves used)
    {path : List String} (proper : path ≠ []) {parent : Option String} {hop : Hop}
    (run : table.registerHop path parent hop = .ok grown) : grown.Serves (used ++ [path]) := by
  rcases serves.registerHop_cases proper parent hop with ⟨old, same⟩ | ⟨new, apart, added⟩ | ⟨_, _, refused⟩
  · cases run.symm.trans same
    exact serves.again old
  · cases run.symm.trans added
    exact serves.fresh proper new apart parent hop
  · cases run.symm.trans refused

/-- A hop is never refused as long as its path is apart from those in use. Nothing is asked of the hop itself. -/
theorem Serves.registerHop_exists {table : Table} {used : List (List String)} (serves : table.Serves used)
    {path : List String} (proper : path ≠ []) (parent : Option String) (hop : Hop) (apart : Apart (used ++ [path])) :
    ∃ grown, table.registerHop path parent hop = .ok grown := by
  rcases serves.registerHop_cases proper parent hop with ⟨_, same⟩ | ⟨_, _, added⟩ | ⟨clash, _⟩
  · exact ⟨table, same⟩
  · exact ⟨_, added⟩
  · exact absurd apart clash

theorem registerFrom_cons_ok {table grown : Table} {before : List String} {parent result : Option String} {hop : Hop}
    {rest : List Hop} :
    table.registerFrom before parent (hop :: rest) = (.ok result, grown) ↔
      ∃ middle, table.registerHop (before ++ [hop.field.name]) parent hop = .ok middle ∧
        middle.registerFrom (before ++ [hop.field.name]) (some (nameOf (before ++ [hop.field.name]))) rest =
          (.ok result, grown) := by
  rw [registerFrom]
  cases table.registerHop (before ++ [hop.field.name]) parent hop with
  | error => simp only [Prod.mk.injEq, reduceCtorEq, false_and, exists_false]
  | ok middle => simp only [Except.ok.injEq, exists_eq_left']

/-- A chain that is registered adds its paths, from the shortest to the longest, to those in use. -/
theorem Serves.registerFrom {table grown : Table} {used : List (List String)} (serves : table.Serves used)
    {before : List String} {parent result : Option String} {chain : List Hop}
    (run : table.registerFrom before parent chain = (.ok result, grown)) :
    grown.Serves (used ++ extensions before (chain.map (·.field.name))) := by
  induction chain generalizing table used before parent with
  | nil =>
    cases run
    simpa only [List.map_nil, extensions, List.inits, List.tail_cons, List.append_nil] using serves
  | cons hop rest ih =>
    obtain ⟨middle, first, later⟩ := registerFrom_cons_ok.mp run
    have proper : before ++ [hop.field.name] ≠ [] := List.append_ne_nil_of_right_ne_nil _ (List.cons_ne_nil _ _)
    have final := ih (serves.registerHop proper first) later
    simpa only [List.map_cons, extensions_cons, List.append_assoc, List.singleton_append] using final

/-- A chain is registered to its end if its paths are apart from those in use and from each other. -/
theorem Serves.registerFrom_exists {table : Table} {used : List (List String)} (serves : table.Serves used)
    (before : List String) (parent : Option String) (chain : List Hop)
    (apart : Apart (used ++ extensions before (chain.map (·.field.name)))) :
    ∃ result grown, table.registerFrom before parent chain = (.ok result, grown) := by
  induction chain generalizing table used before parent with
  | nil => exact ⟨parent, table, rfl⟩
  | cons hop rest ih =>
    have proper : before ++ [hop.field.name] ≠ [] := List.append_ne_nil_of_right_ne_nil _ (List.cons_ne_nil _ _)
    rw [List.map_cons, extensions_cons, List.append_cons] at apart
    obtain ⟨middle, first⟩ := serves.registerHop_exists proper parent hop apart.left
    obtain ⟨result, grown, later⟩ := ih (serves.registerHop proper first) (before ++ [hop.field.name]) _ apart
    exact ⟨result, grown, registerFrom_cons_ok.mpr ⟨middle, first, later⟩⟩

/-- As far as the table is concerned, a refused chain is a shorter one that was registered. -/
theorem registerFrom_registered (table : Table) (before : List String) (parent : Option String) (chain : List Hop) :
    ∃ done result, done <+: chain ∧
      table.registerFrom before parent done = (.ok result, (table.registerFrom before parent chain).2) := by
  induction chain generalizing table before parent with
  | nil => exact ⟨[], parent, List.prefix_refl [], rfl⟩
  | cons hop rest ih =>
    cases run : table.registerHop (before ++ [hop.field.name]) parent hop with
    | error collision =>
      refine ⟨[], parent, List.nil_prefix, ?_⟩
      simp only [registerFrom, run]
    | ok grown =>
      obtain ⟨done, result, shorter, registered⟩ :=
        ih grown (before ++ [hop.field.name]) (some (nameOf (before ++ [hop.field.name])))
      refine ⟨hop :: done, result, (List.prefix_cons_inj hop).mpr shorter, ?_⟩
      simp only [registerFrom, run, registered]

/-- The answer to a chain is the name of its whole path. What the table had before makes no difference to it. -/
theorem registerFrom_result {table grown : Table} {before : List String} {result : Option String} {chain : List Hop}
    (run : table.registerFrom before (through before) chain = (.ok result, grown)) :
    result = through (before ++ chain.map (·.field.name)) := by
  induction chain generalizing table before with
  | nil =>
    cases run
    rw [List.map_nil, List.append_nil]
  | cons hop rest ih =>
    obtain ⟨middle, _, later⟩ := registerFrom_cons_ok.mp run
    rw [← through_concat] at later
    rw [ih later, List.map_cons, List.append_assoc, List.singleton_append]

end Table

end ComputedFields.Lookup
