import ComputedFields.Schema.Records
import ComputedFields.Step.Records
import Mathlib.Control.Basic

namespace ComputedFields

section

variable {ε α β : Type}

theorem ok_bind (a : α) (f : α → Except ε β) : (Except.ok a >>= f) = f a := rfl

theorem pure_eq_ok (a : α) : (pure a : Except ε α) = .ok a := rfl

/-- A computation in two stages succeeds exactly if both of them do. Readers are taken apart by this, one stage at a
time. -/
theorem bind_eq_ok_iff {x : Except ε α} {f : α → Except ε β} {b : β} :
    (x >>= f) = .ok b ↔ ∃ a, x = .ok a ∧ f a = .ok b := by
  cases x with
  | error e => exact ⟨nofun, nofun⟩
  | ok a => exact ⟨fun run => ⟨a, rfl, run⟩, fun ⟨_, same, run⟩ => Except.ok.inj same ▸ run⟩

theorem map_eq_ok_iff {x : Except ε α} {f : α → β} {b : β} : f <$> x = .ok b ↔ ∃ a, x = .ok a ∧ f a = b := by
  cases x with
  | error e => exact ⟨nofun, nofun⟩
  | ok a => exact ⟨fun run => ⟨a, rfl, Except.ok.inj run⟩, fun ⟨_, same, equal⟩ => Except.ok.inj same ▸ equal ▸ rfl⟩

theorem mapM_cons_ok_iff {f : α → Except ε β} {a : α} {rest : List α} {values : List β} :
    (a :: rest).mapM f = .ok values ↔ ∃ b others, f a = .ok b ∧ rest.mapM f = .ok others ∧ values = b :: others := by
  rw [List.mapM_cons, bind_eq_ok_iff]
  constructor
  · rintro ⟨b, here, later⟩
    obtain ⟨others, there, same⟩ := bind_eq_ok_iff.mp later
    exact ⟨b, others, here, there, (Except.ok.inj same).symm⟩
  · rintro ⟨b, others, here, there, rfl⟩
    exact ⟨b, here, bind_eq_ok_iff.mpr ⟨others, there, rfl⟩⟩

/-- Every value of a list was read somewhere. -/
theorem read_of_mem_mapM {f : α → Except ε β} {items : List α} {values : List β} (run : items.mapM f = .ok values) :
    ∀ value ∈ values, ∃ item, f item = .ok value := by
  induction items generalizing values with
  | nil =>
    cases run
    exact fun _ none => nomatch none
  | cons item rest ih =>
    obtain ⟨b, others, here, there, rfl⟩ := mapM_cons_ok_iff.mp run
    intro value member
    rcases List.mem_cons.mp member with rfl | later
    · exact ⟨item, here⟩
    · exact ih there value later

/-- A list is read back if all that is in it is. -/
theorem mapM_map_ok {encode : α → β} {f : β → Except ε α} {items : List α}
    (back : ∀ item ∈ items, f (encode item) = .ok item) : (items.map encode).mapM f = .ok items := by
  induction items with
  | nil => rfl
  | cons item rest ih =>
    have here := back item (List.mem_cons_self ..)
    have there := ih fun other later => back other (List.mem_cons_of_mem _ later)
    exact mapM_cons_ok_iff.mpr ⟨item, rest, here, there, rfl⟩

end

namespace Format

variable {ε ν σ α : Type}

/-- The format can hold JSON: it reads the node of a JSON value as that value says. Nothing is said about nodes that are
no JSON values, or about values that have to be read as they are. -/
structure Faithful (F : Format (Except ε) ν) (node : Json → ν) : Prop where
  text : ∀ s, F.text (node (.str s)) = .ok s
  flag : ∀ b, F.flag (node (.bool b)) = .ok b
  choice : ∀ known name, name ∈ known → F.choice known (node (.str name)) = .ok name
  optional : ∀ {α : Type} (read : ν → Except ε α) (value : Json), value ≠ .null →
    F.optional read (node value) = some <$> read (node value)
  list : ∀ {α : Type} (read : ν → Except ε α) (items : List Json),
    F.list read (node (.arr items)) = (items.map node).mapM read
  layout : ∀ expected members, F.layout expected (node (.obj members)) =
    .ok (.keyed (members.map fun member => (.ok member.1, node member.2)) (.ok ()))

/-- What a format can be relied on for, whatever it has read: a misfit is no success, and what is found inside a node
was read from some node. -/
structure Sound (F : Format (Except ε) ν) : Prop where
  misfit : ∀ {α : Type} (m : Misfit) (a : α), F.misfit m ≠ .ok a
  optional : ∀ {α : Type} {read : ν → Except ε α} {n : ν} {a : α},
    F.optional read n = .ok (some a) → read n = .ok a
  list : ∀ {α : Type} {read : ν → Except ε α} {n : ν} {values : List α},
    F.list read n = .ok values → ∀ value ∈ values, ∃ item, read item = .ok value

variable {F : Format (Except ε) ν} {node : Json → ν} {slots : List (Slot (Except ε) ν σ)}

theorem Faithful.optional_text (faithful : F.Faithful node) (s : String) :
    F.optional F.text (node (.str s)) = .ok (some s) := by
  rw [faithful.optional F.text (.str s) nofun, faithful.text]
  rfl

theorem Faithful.list_map (faithful : F.Faithful node) {encode : α → Json} {read : ν → Except ε α} {items : List α}
    (back : ∀ item ∈ items, read (node (encode item)) = .ok item) :
    F.list read (node (.arr (items.map encode))) = .ok items := by
  rw [faithful.list, List.map_map]
  exact mapM_map_ok back

/-- The members of an object are taken one by one, in their order. -/
theorem Faithful.gather (faithful : F.Faithful node) (name : String) (empty : σ) (members : List (String × Json)) :
    F.gather name slots empty (node (.obj members)) =
      members.foldlM (fun parts member => F.fillMember slots parts (.ok member.1, node member.2)) empty := by
  rw [Format.gather, faithful.layout, ok_bind, ← List.foldlM_map]
  exact bind_pure _

section

variable {P : σ → Prop}
  (filling : ∀ slot ∈ slots, ∀ n parts parts', P parts → slot.fill n parts = .ok parts' → P parts')

include filling

/-- One member keeps what all slots keep. It fills a slot that is empty or is passed over, and a repeated one is
refused. -/
theorem Sound.fillMember (sound : F.Sound) {parts parts' : σ} {member : Except ε String × ν} (before : P parts)
    (run : F.fillMember slots parts member = .ok parts') : P parts' := by
  obtain ⟨key, _, rest⟩ := bind_eq_ok_iff.mp run
  split at rest
  · rename_i slot found
    -- A slot that is filled already is refused, so nothing is filled twice.
    split at rest
    · exact absurd rest (sound.misfit _ _)
    · exact filling slot (List.mem_of_find?_eq_some found) _ _ _ before rest
  · obtain ⟨_, _, same⟩ := bind_eq_ok_iff.mp rest
    cases same
    exact before

theorem Sound.foldlM_fillMember (sound : F.Sound) {members : List (Except ε String × ν)} {parts parts' : σ}
    (before : P parts) (run : members.foldlM (F.fillMember slots) parts = .ok parts') : P parts' := by
  induction members generalizing parts with
  | nil =>
    cases run
    exact before
  | cons member rest ih =>
    obtain ⟨middle, here, later⟩ := bind_eq_ok_iff.mp run
    exact ih (sound.fillMember filling before here) later

/-- Values that are given by place keep it too. They fill the slots in their order, up to the last value or the last
slot. -/
theorem Sound.fillInOrder (sound : F.Sound) {expected : String} {close surplus : Except ε Unit} {index : Nat}
    {items : List ν} {parts parts' : σ} (before : P parts)
    (run : F.fillInOrder expected close surplus index slots items parts = .ok parts') : P parts' := by
  induction slots generalizing index items parts with
  | nil =>
    cases items with
    | nil =>
      obtain ⟨_, _, same⟩ := bind_eq_ok_iff.mp run
      cases same
      exact before
    | cons item others =>
      obtain ⟨_, _, same⟩ := bind_eq_ok_iff.mp run
      cases same
      exact before
  | cons slot rest ih =>
    cases items with
    | nil =>
      obtain ⟨_, _, last⟩ := bind_eq_ok_iff.mp run
      split at last
      · exact absurd last (sound.misfit _ _)
      · cases last
        exact before
    | cons item others =>
      obtain ⟨middle, here, later⟩ := bind_eq_ok_iff.mp run
      have filled := filling slot (List.mem_cons_self ..) _ _ _ before here
      exact ih (fun other among => filling other (List.mem_cons_of_mem _ among)) filled later

/-- What holds before a record is read, and stays true with each field that is filled in, holds of all that was
gathered, whether by name or by place. -/
theorem Sound.gather (sound : F.Sound) {name : String} {empty parts : σ} {n : ν} (start : P empty)
    (run : F.gather name slots empty n = .ok parts) : P parts := by
  obtain ⟨layout, _, rest⟩ := bind_eq_ok_iff.mp run
  cases layout with
  | keyed members close =>
    obtain ⟨filled, here, last⟩ := bind_eq_ok_iff.mp rest
    obtain ⟨_, _, same⟩ := bind_eq_ok_iff.mp last
    cases same
    exact sound.foldlM_fillMember filling start here
  | placed items close surplus => exact sound.fillInOrder filling start rest

end

theorem Sound.need (sound : F.Sound) {name : String} {part : Option α} {a : α} (run : F.need name part = .ok a) :
    part = some a := by
  cases part with
  | none => exact absurd run (sound.misfit _ _)
  | some b =>
    cases run
    rfl

end Format

namespace Json

theorem faithful_format : format.Faithful id where
  text _ := rfl
  flag _ := rfl
  choice known name member := by
    simp only [format, id_eq, readChoice, checkVariant, List.contains_iff_mem.mpr member, if_true]
  optional read value present := by
    cases value with
    | null => exact absurd rfl present
    | _ => rfl
  list read items := by rw [List.map_id]; rfl
  layout _ _ := rfl

theorem sound_format : format.Sound where
  misfit _ _ := nofun
  optional := by
    intro α read n a run
    cases n with
    | null => cases run
    | _ =>
      obtain ⟨b, here, same⟩ := map_eq_ok_iff.mp run
      cases same
      exact here
  list := by
    intro α read n values run
    cases n with
    | arr items => exact read_of_mem_mapM run
    | _ => cases run

end Json

end ComputedFields
