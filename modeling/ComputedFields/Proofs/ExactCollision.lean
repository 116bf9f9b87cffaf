import ComputedFields.Proofs.RootedLookups

namespace ComputedFields

namespace Lookup

/-- Going on along a path always changes the name. -/
theorem nameOf_append_ne {path more : List String} (proper : path ≠ []) (further : more ≠ []) :
    nameOf (path ++ more) ≠ nameOf path := by
  intro same
  have equal := Text.eq_of_join_eq proper (List.prefix_append path more) (nameOf_inj.mp same.symm)
  exact further (List.self_eq_append_right.mp equal)

namespace Table

variable {table met : Table} {used : List (List String)} {path : List String} {parent : Option String}
  {entry : Entry} {hop : Hop}

/-- A search by name finds the one entry that has the name. Names are distinct, so it does not matter in which order the
entries stand. -/
theorem Serves.find?_eq_some_iff (serves : table.Serves used) :
    table.find? (nameOf path) = some entry ↔ entry ∈ table.entries ∧ entry.lookup.name = nameOf path := by
  constructor
  · intro found
    exact ⟨List.mem_of_find?_eq_some found, by simpa only [beq_iff_eq] using List.find?_some found⟩
  · rintro ⟨member, named⟩
    cases found : table.find? (nameOf path) with
    | none => exact absurd (beq_iff_eq.mpr named) (List.find?_eq_none.mp found entry member)
    | some other =>
      have named' : other.lookup.name = nameOf path := by simpa only [beq_iff_eq] using List.find?_some found
      have distinct := serves.nodup_names
      rw [lookups, List.map_map] at distinct
      rw [List.inj_on_of_nodup_map distinct (List.mem_of_find?_eq_some found) member (named'.trans named.symm)]

theorem find?_nameOf_eq_none_iff :
    table.find? (nameOf path) = none ↔ ∀ entry ∈ table.entries, entry.lookup.name ≠ nameOf path := by
  simp only [find?, List.find?_eq_none, beq_iff_eq, ne_eq]

/-- The entry with the name of a path is for that path as soon as the dotted texts agree. -/
theorem Serves.path_eq_iff (serves : table.Serves used) (proper : path ≠ []) (member : entry ∈ table.entries)
    (named : entry.lookup.name = nameOf path) : entry.path = Text.join "." path ↔ entry.segments = path := by
  constructor
  · intro dotted
    rw [serves.named entry member, nameOf_inj] at named
    exact Text.join_pair_inj (serves.proper _ (serves.used_of_mem member)) proper named dotted
  · exact congrArg (Text.join ".")

theorem concat_ne (table : Table) (entry : Entry) : (⟨table.entries ++ [entry]⟩ : Table) ≠ table := by
  intro same
  have entries : table.entries ++ [entry] = table.entries := congrArg Table.entries same
  exact absurd (List.append_right_eq_self.mp entries) (List.cons_ne_nil _ _)

/-- A hop is reused exactly if there is an entry for its own relations, although only texts are compared. -/
theorem Serves.registerHop_reused_iff (serves : table.Serves used) (proper : path ≠ []) :
    table.registerHop path parent hop = .ok table ↔ ∃ entry ∈ table.entries, entry.segments = path := by
  constructor
  · intro run
    unfold Table.registerHop at run
    split at run
    · rename_i entry found
      obtain ⟨member, named⟩ := serves.find?_eq_some_iff.mp found
      split at run
      · rename_i dotted
        exact ⟨entry, member, (serves.path_eq_iff proper member named).mp dotted⟩
      · cases run
    · exact absurd (Except.ok.inj run) (concat_ne table _)
  · rintro ⟨entry, member, rfl⟩
    have found := serves.find?_eq_some_iff.mpr ⟨member, serves.named entry member⟩
    simp only [Table.registerHop, found, Entry.path, if_true]

/-- A hop is refused exactly for an entry of its name that is for other relations. The collision shows the path of that
entry. -/
theorem Serves.registerHop_refused_iff (serves : table.Serves used) (proper : path ≠ []) {collision : Collision} :
    table.registerHop path parent hop = .error collision ↔
      ∃ entry ∈ table.entries, entry.segments ≠ path ∧ entry.lookup.name = nameOf path ∧
        collision = ⟨nameOf path, entry.path, Text.join "." path⟩ := by
  constructor
  · intro run
    unfold Table.registerHop at run
    split at run
    · rename_i entry found
      obtain ⟨member, named⟩ := serves.find?_eq_some_iff.mp found
      split at run
      · cases run
      · rename_i dotted
        refine ⟨entry, member, ?_, named, (Except.error.inj run).symm⟩
        exact fun same => dotted ((serves.path_eq_iff proper member named).mpr same)
    · cases run
  · rintro ⟨entry, member, different, named, rfl⟩
    have found := serves.find?_eq_some_iff.mpr ⟨member, named⟩
    have dotted := mt (serves.path_eq_iff proper member named).mp different
    simp only [Table.registerHop, found, dotted, if_false]

theorem registerHop_added_iff :
    table.registerHop path parent hop = .ok ⟨table.entries ++ [⟨path, ofHop path parent hop⟩]⟩ ↔
      ∀ entry ∈ table.entries, entry.lookup.name ≠ nameOf path := by
  rw [← find?_nameOf_eq_none_iff]
  constructor
  · intro run
    unfold Table.registerHop at run
    split at run
    · split at run
      · exact absurd (Except.ok.inj run).symm (concat_ne table _)
      · cases run
    · assumption
  · intro none
    simp only [Table.registerHop, none, ofHop]

theorem registerFrom_append_of_ok {before : List String} {result : Option String} {first : List Hop}
    (run : table.registerFrom before parent first = (.ok result, met)) (second : List Hop) :
    table.registerFrom before parent (first ++ second) =
      met.registerFrom (before ++ first.map (·.field.name)) result second := by
  induction first generalizing table before parent with
  | nil =>
    cases run
    rw [List.nil_append, List.map_nil, List.append_nil]
  | cons hop rest ih =>
    obtain ⟨middle, here, later⟩ := registerFrom_cons_ok.mp run
    simp only [List.cons_append, registerFrom, here, ih later, List.map_cons, List.append_assoc, List.nil_append]

theorem registerFrom_append_of_error {before : List String} {collision : Collision} {first : List Hop}
    (run : table.registerFrom before parent first = (.error collision, met)) (second : List Hop) :
    table.registerFrom before parent (first ++ second) = (.error collision, met) := by
  induction first generalizing table before parent with
  | nil => cases run
  | cons hop rest ih =>
    rw [registerFrom] at run
    rw [List.cons_append, registerFrom]
    cases here : table.registerHop (before ++ [hop.field.name]) parent hop with
    | error refused => simpa only [here] using run
    | ok grown =>
      simp only [here] at run
      exact ih run

/-- Whichever hop of a chain is refused, the name in the collision is that of a path beyond the one it started from. -/
theorem registerFrom_error_name {before : List String} {collision : Collision} {chain : List Hop}
    (run : table.registerFrom before parent chain = (.error collision, met)) :
    ∃ more, more ≠ [] ∧ collision.name = nameOf (before ++ more) := by
  induction chain generalizing table before parent with
  | nil => cases run
  | cons hop rest ih =>
    rw [registerFrom] at run
    cases here : table.registerHop (before ++ [hop.field.name]) parent hop with
    | error refused =>
      simp only [here, Prod.mk.injEq, Except.error.injEq] at run
      obtain ⟨rfl, _⟩ := run
      exact ⟨[hop.field.name], List.cons_ne_nil _ _, registerHop_error_name here⟩
    | ok grown =>
      simp only [here] at run
      obtain ⟨more, _, named⟩ := ih run
      exact ⟨hop.field.name :: more, List.cons_ne_nil _ _, by rw [named, List.append_assoc, List.singleton_append]⟩

/-- A chain that comes to a hop is answered there by what registering the hop gives. -/
theorem registerChain_concat_ok_iff {done : List Hop} (run : table.registerChain done = (.ok parent, met))
    (ends : (done ++ [hop]).map (·.field.name) = path) {grown : Table} :
    table.registerChain (done ++ [hop]) = (.ok (some (nameOf path)), grown) ↔
      met.registerHop path parent hop = .ok grown := by
  rw [List.map_append, List.map_singleton] at ends
  rw [registerChain, registerFrom_append_of_ok run, List.nil_append, registerFrom_cons_ok, ends]
  simp only [registerFrom, Prod.mk.injEq, true_and, exists_eq_right]

/-- A chain is refused at a hop exactly if the hop itself is. Its name tells the hop, so no later one can be meant. -/
theorem registerChain_refused_iff {done : List Hop} (run : table.registerChain done = (.ok parent, met))
    (ends : (done ++ [hop]).map (·.field.name) = path) (proper : path ≠ []) (rest : List Hop)
    {collision : Collision} (named : collision.name = nameOf path) :
    table.registerChain (done ++ hop :: rest) = (.error collision, met) ↔
      met.registerHop path parent hop = .error collision := by
  rw [List.map_append, List.map_singleton] at ends
  rw [registerChain, registerFrom_append_of_ok run, List.nil_append, registerFrom, ends]
  cases here : met.registerHop path parent hop with
  | error refused => simp only [Prod.mk.injEq, Except.error.injEq, and_true]
  | ok grown =>
    -- What a hop further on is refused for has a longer name.
    refine iff_of_false ?_ (by simp only [reduceCtorEq, not_false_eq_true])
    intro later
    obtain ⟨more, further, named'⟩ := registerFrom_error_name later
    exact nameOf_append_ne proper further (named'.symm.trans named)

/-- Whatever chains were asked for, and however many of them were refused, the table serves some list of paths. -/
theorem afterChains_serves (chains : List (List Hop)) : ∃ used, (afterChains chains).Serves used := by
  induction chains using List.reverseRecOn with
  | nil => exact ⟨[], .empty⟩
  | append_singleton earlier chain ih =>
    obtain ⟨used, serves⟩ := ih
    obtain ⟨done, result, _, registered⟩ := (afterChains earlier).registerFrom_registered [] none chain
    rw [afterChains_concat]
    exact ⟨_, serves.registerFrom registered⟩

end Table

end Lookup

/-- The name and the dotted text of a path together tell it from every other path. So, whatever chains have been asked
for, and whatever their relations are called: a chain uses the entry that is there for the relations up to a hop, is
refused if their name belongs to an entry for other relations, and adds an entry if the name belongs to none. -/
theorem collision_test_exact :
    (∀ path other : List String, path ≠ [] → other ≠ [] → Lookup.nameOf path = Lookup.nameOf other →
      Text.join "." path = Text.join "." other → path = other) ∧
    ∀ (chains : List (List Hop)) (done : List Hop) (hop : Hop) (rest : List Hop) (path : List String),
      (done ++ [hop]).map (·.field.name) = path →
      -- A chain that is refused on the way does not come to the hop.
      (∀ collision met, (Lookup.Table.afterChains chains).registerChain done = (.error collision, met) →
        (Lookup.Table.afterChains chains).registerChain (done ++ hop :: rest) = (.error collision, met)) ∧
      ∀ parent met, (Lookup.Table.afterChains chains).registerChain done = (.ok parent, met) →
        ((Lookup.Table.afterChains chains).registerChain (done ++ [hop]) =
            (.ok (some (Lookup.nameOf path)), met) ↔
          ∃ entry ∈ met.entries, entry.segments = path) ∧
        (∀ existing, (Lookup.Table.afterChains chains).registerChain (done ++ hop :: rest) =
            (.error ⟨Lookup.nameOf path, existing, Text.join "." path⟩, met) ↔
          ∃ entry ∈ met.entries, entry.segments ≠ path ∧ entry.lookup.name = Lookup.nameOf path ∧
            existing = entry.path) ∧
        ((Lookup.Table.afterChains chains).registerChain (done ++ [hop]) =
            (.ok (some (Lookup.nameOf path)), ⟨met.entries ++ [⟨path, Lookup.ofHop path parent hop⟩]⟩) ↔
          ∀ entry ∈ met.entries, entry.lookup.name ≠ Lookup.nameOf path) := by
  constructor
  · intro path other proper proper' named dotted
    exact Text.join_pair_inj proper proper' (Lookup.nameOf_inj.mp named) dotted
  · intro chains done hop rest path ends
    refine ⟨fun collision met run => Lookup.Table.registerFrom_append_of_error run _, ?_⟩
    intro parent met run
    obtain ⟨used, serves⟩ := Lookup.Table.afterChains_serves chains
    have served := serves.registerFrom run
    have proper : path ≠ [] := by
      rw [← ends, List.map_append]
      exact List.append_ne_nil_of_right_ne_nil _ (List.cons_ne_nil _ _)
    refine ⟨?_, ?_, ?_⟩
    · rw [Lookup.Table.registerChain_concat_ok_iff run ends, served.registerHop_reused_iff proper]
    · intro existing
      rw [Lookup.Table.registerChain_refused_iff run ends proper rest rfl, served.registerHop_refused_iff proper]
      simp only [Lookup.Collision.mk.injEq, true_and, and_true]
    · rw [Lookup.Table.registerChain_concat_ok_iff run ends, Lookup.Table.registerHop_added_iff]

/-- A relation of that name, between models without a name. -/
def Hop.called (name : String) : Hop := ⟨{ name := "" }, { name, type := .relation }, { name := "" }⟩

/-- Two relations without a name are asked for. They are found again. A relation whose name is an underscore is refused
for their name, and one whose name is a dot shares only their dotted text. -/
theorem nameless_relations_told_apart :
    ∃ table, Lookup.Table.afterChains [[.called "", .called ""]] = table ∧
      Text.join "." ["", "_"] ≠ Text.join "." ["_", ""] ∧
      table.registerChain [.called "", .called ""] = (.ok (some "__calc_lookup__"), table) ∧
      table.registerChain [.called "_", .called "city"] = (.error ⟨"__calc_lookup__", ".", "_"⟩, table) ∧
      table.registerChain [.called "."] = (.ok (some "__calc_lookup_."),
        ⟨table.entries ++ [⟨["."], Lookup.ofHop ["."] none (.called ".")⟩]⟩) := by
  obtain ⟨told, settled⟩ := collision_test_exact
  refine ⟨_, rfl, ?_, ?_, ?_, ?_⟩
  · intro dotted
    exact absurd (told ["", "_"] ["_", ""] (by decide) (by decide) rfl dotted) (by decide)
  · obtain ⟨_, comes⟩ := settled [[.called "", .called ""]] [.called ""] (.called "") [] ["", ""] rfl
    exact (comes _ _ rfl).1.mpr ⟨_, List.mem_cons_of_mem _ (List.mem_singleton_self _), rfl⟩
  · obtain ⟨_, comes⟩ := settled [[.called "", .called ""]] [] (.called "_") [.called "city"] ["_"] rfl
    exact ((comes _ _ rfl).2.1 ".").mpr ⟨_, List.mem_cons_of_mem _ (List.mem_singleton_self _), by decide, rfl, rfl⟩
  · obtain ⟨_, comes⟩ := settled [[.called "", .called ""]] [] (.called ".") [] ["."] rfl
    exact (comes _ _ rfl).2.2.mpr (by decide)

end ComputedFields
