import ComputedFields.Proofs.FaithfulEmission
import ComputedFields.Proofs.FaithfulFormat

namespace ComputedFields.Json

mutual

/-- What a text that spells the value reads as. -/
def draft : Json → Draft
  | .null => .null
  | .bool b => .bool b
  | .num n => .num n
  | .str s => .str s
  | .arr items => .arr (draftItems items) none
  | .obj members => .obj (draftMembers members) none

def draftItems : List Json → List Draft
  | [] => []
  | item :: rest => item.draft :: draftItems rest

def draftMembers : List (String × Json) → List (Key × Draft)
  | [] => []
  | (key, value) :: rest => (.text key, value.draft) :: draftMembers rest

end

mutual

/-- No object in the value has a key twice. -/
def Distinct : Json → Prop
  | .arr items => DistinctItems items
  | .obj members => (members.map Prod.fst).Nodup ∧ DistinctMembers members
  | _ => True

def DistinctItems : List Json → Prop
  | [] => True
  | item :: rest => item.Distinct ∧ DistinctItems rest

def DistinctMembers : List (String × Json) → Prop
  | [] => True
  | (_, value) :: rest => value.Distinct ∧ DistinctMembers rest

end

theorem draftItems_eq_map (items : List Json) : draftItems items = items.map draft := by
  induction items with
  | nil => rfl
  | cons item rest ih => rw [draftItems, ih, List.map_cons]

theorem draftMembers_eq_map (members : List (String × Json)) :
    draftMembers members = members.map fun member => (.text member.1, member.2.draft) := by
  induction members with
  | nil => rfl
  | cons member rest ih => rw [draftMembers, ih, List.map_cons]

mutual

/-- A value is read back from its draft if no object in it has a key twice. The recursion goes into the arrays and
objects. -/
theorem read_draft : ∀ {value : Json}, value.Distinct → value.draft.read = .ok value
  | .null, _ => rfl
  | .bool _, _ => rfl
  | .num _, _ => rfl
  | .str _, _ => rfl
  | .arr items, distinct => by
    rw [draft, Draft.read, readItems_draft distinct]
    rfl
  | .obj members, distinct => by
    have members_read : Draft.readMembers [] (draftMembers members) = .ok members :=
      readMembers_draft distinct.1 distinct.2
    rw [draft, Draft.read, members_read]
    rfl

theorem readItems_draft : ∀ {items : List Json}, DistinctItems items → Draft.readItems (draftItems items) = .ok items
  | [], _ => rfl
  | item :: rest, distinct => by
    rw [draftItems, Draft.readItems, read_draft distinct.1, readItems_draft distinct.2]
    rfl

theorem readMembers_draft : ∀ {done members : List (String × Json)}, ((done ++ members).map Prod.fst).Nodup →
    DistinctMembers members → Draft.readMembers done (draftMembers members) = .ok (done ++ members)
  | done, [], _, _ => by rw [List.append_nil]; rfl
  | done, (key, value) :: rest, once, distinct => by
    -- A key that is not among those read so far goes to the end, so the order stays.
    have new : key ∉ done.map Prod.fst := by
      rw [List.map_append, List.nodup_append] at once
      exact fun before => once.2.2 key before key (List.mem_cons_self ..) rfl
    rw [draftMembers, Draft.readMembers, read_draft distinct.1, Key.read, ok_bind, ok_bind, put_of_new new,
      readMembers_draft (by rwa [List.append_assoc]) distinct.2, List.append_assoc]
    rfl

end

theorem distinctMembers_put {key : String} {value : Json} {members : List (String × Json)} (here : value.Distinct)
    (others : DistinctMembers members) : DistinctMembers (put key value members) := by
  induction members with
  | nil => exact ⟨here, trivial⟩
  | cons member rest ih =>
    rw [put]
    split
    · exact ⟨here, others.2⟩
    · exact ⟨others.1, ih others.2⟩

/-- Setting a key does not make it come twice, because a key that is there gets the new value in its place. -/
theorem nodup_keys_put {key : String} {value : Json} {members : List (String × Json)}
    (once : (members.map Prod.fst).Nodup) : ((put key value members).map Prod.fst).Nodup := by
  rw [keys_put]
  split
  · exact once
  · rename_i new
    exact (List.perm_append_singleton _ _).nodup_iff.mpr (List.nodup_cons.mpr ⟨new, once⟩)

mutual

/-- A key that comes again replaces its value, so that whatever is read has each key once. -/
theorem distinct_of_read : ∀ {d : Draft} {value : Json}, d.read = .ok value → value.Distinct
  | .null, _, rfl | .bool _, _, rfl | .num _, _, rfl | .str _, _, rfl => trivial
  | .arr items close, value, run => by
    obtain ⟨values, read, rest⟩ := bind_eq_ok_iff.mp run
    obtain ⟨_, _, same⟩ := bind_eq_ok_iff.mp rest
    cases same
    exact distinct_of_readItems read
  | .obj members close, value, run => by
    obtain ⟨values, read, rest⟩ := bind_eq_ok_iff.mp run
    obtain ⟨_, _, same⟩ := bind_eq_ok_iff.mp rest
    cases same
    exact distinct_of_readMembers read List.nodup_nil trivial

theorem distinct_of_readItems : ∀ {items : List Draft} {values : List Json}, Draft.readItems items = .ok values →
    DistinctItems values
  | [], _, rfl => trivial
  | item :: rest, values, run => by
    obtain ⟨value, here, later⟩ := bind_eq_ok_iff.mp run
    obtain ⟨others, there, same⟩ := bind_eq_ok_iff.mp later
    cases same
    exact ⟨distinct_of_read here, distinct_of_readItems there⟩

theorem distinct_of_readMembers : ∀ {members : List (Key × Draft)} {done values : List (String × Json)},
    Draft.readMembers done members = .ok values → (done.map Prod.fst).Nodup → DistinctMembers done →
    (values.map Prod.fst).Nodup ∧ DistinctMembers values
  | [], _, _, rfl, once, distinct => ⟨once, distinct⟩
  | (key, item) :: rest, done, values, run, once, distinct => by
    obtain ⟨name, _, later⟩ := bind_eq_ok_iff.mp run
    obtain ⟨value, here, last⟩ := bind_eq_ok_iff.mp later
    exact distinct_of_readMembers last (nodup_keys_put once) (distinctMembers_put (distinct_of_read here) distinct)

end

namespace Draft

/-- A text is read in two stages, first into tokens and then into a draft, and each of them can be evaluated by
itself. -/
theorem ofText_of_tokens {text : String} {tokens : List Token} {d : Draft} {whole : [].length < tokens.length}
    (scanned : Token.scan text.toList = tokens) (drafted : ofTokens 0 tokens = (d, some ⟨[], whole⟩)) :
    ofText text = (d, none) := by
  subst scanned
  rw [ofText, drafted]

theorem wrongKind_ne_ok {α : Type} (d : Draft) (expected : String) (a : α) : d.wrongKind expected ≠ .ok a := by
  intro run
  obtain ⟨_, _, impossible⟩ := bind_eq_ok_iff.mp run
  cases impossible

theorem faithful_format : format.Faithful draft where
  text _ := rfl
  flag _ := rfl
  choice known name member := by
    simp only [format, draft, readChoice, checkVariant, List.contains_iff_mem.mpr member, if_true]
    rfl
  optional read value present := by
    cases value with
    | null => exact absurd rfl present
    | _ => rfl
  list read items := by
    rw [← draftItems_eq_map]
    exact bind_pure _
  layout expected members := by
    simp only [format, draft, draftMembers_eq_map, List.map_map]
    rfl

theorem sound_format : format.Sound where
  misfit _ _ := nofun
  optional := by
    intro α read n a run
    cases n with
    | null => cases run
    | _ =>
      obtain ⟨b, here, same⟩ := map_eq_ok_iff.mp run
      cases same
      exact here
  list := by
    intro α read n values run
    cases n with
    | arr items close =>
      obtain ⟨_, here, rest⟩ := bind_eq_ok_iff.mp run
      obtain ⟨_, _, same⟩ := bind_eq_ok_iff.mp rest
      cases same
      exact read_of_mem_mapM here
    | _ => exact absurd run (wrongKind_ne_ok _ _ _)

end Draft

end ComputedFields.Json
