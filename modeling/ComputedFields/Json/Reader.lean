import ComputedFields.Json.Token

namespace ComputedFields.Json

/-- So many lists and objects may be open at once. -/
def depthLimit : Nat := 127

/-- The tokens that are left, unless the draft ended in a fault. -/
abbrev Left (ts : List Token) : Type := Option { rest : List Token // rest.length < ts.length }

def Left.widen {ts us : List Token} (h : ts.length ≤ us.length) : Left ts → Left us
  | some ⟨rest, shorter⟩ => some ⟨rest, Nat.lt_of_lt_of_le shorter h⟩
  | none => none

namespace Draft

def strayKey : Token → Key
  | .cut true read skip => .broken read skip
  | _ => .stray

def bounded (depth : Nat) (d : Draft) : Draft :=
  if depth < depthLimit then d else d.buried

mutual

/-- The draft of one value with `depth` lists and objects open around it. -/
def ofTokens (depth : Nat) : (ts : List Token) → Draft × Left ts
  | [] => (.broken .truncated .truncated, none)
  | .scalar d :: rest => (d, some ⟨rest, by simp only [List.length_cons]; omega⟩)
  | .text (some s) :: rest => (.str s, some ⟨rest, by simp only [List.length_cons]; omega⟩)
  | .text none :: rest => (.unreadable, some ⟨rest, by simp only [List.length_cons]; omega⟩)
  | .cut true read skip :: _ => (.broken read skip, none)
  | .cut false read skip :: _ => (.fragment read skip, none)
  | [.mark .listStart] => (bounded depth (.arr [] (some .truncated)), none)
  | .mark .listStart :: .mark .listEnd :: rest =>
    (bounded depth (.arr [] none), some ⟨rest, by simp only [List.length_cons]; omega⟩)
  | .mark .listStart :: rest =>
    let (items, close, left) := itemsOf (depth + 1) rest
    (bounded depth (.arr items close), left.widen (by simp only [List.length_cons]; omega))
  | [.mark .objectStart] => (bounded depth (.obj [] (some .truncated)), none)
  | .mark .objectStart :: .mark .objectEnd :: rest =>
    (bounded depth (.obj [] none), some ⟨rest, by simp only [List.length_cons]; omega⟩)
  | .mark .objectStart :: rest =>
    let (members, close, left) := membersOf (depth + 1) rest
    (bounded depth (.obj members close), left.widen (by simp only [List.length_cons]; omega))
  | _ :: _ => (.broken .malformed .malformed, none)
termination_by ts => (ts.length, 0)

/-- The items of a list up to its closing bracket. After a comma there is always an item, if only a broken one. -/
def itemsOf (depth : Nat) (ts : List Token) : List Draft × Option Fault × Left ts :=
  match ofTokens depth ts with
  | (item, none) => ([item], none, none)
  | (item, some ⟨rest, shorter⟩) =>
    match rest with
    | [] => ([item], some .truncated, none)
    | .mark .listEnd :: more => ([item], none, some ⟨more, by simp only [List.length_cons] at shorter; omega⟩)
    | .mark .comma :: more =>
      have : more.length < ts.length := by simp only [List.length_cons] at shorter; omega
      let (items, close, left) := itemsOf depth more
      (item :: items, close, left.widen (by omega))
    | _ :: _ => ([item], some .malformed, none)
termination_by (ts.length, 1)

/-- The members of an object up to its closing brace. -/
def membersOf (depth : Nat) (ts : List Token) : List (Key × Draft) × Option Fault × Left ts :=
  match ts with
  | [] => ([(.broken .truncated .truncated, .null)], none, none)
  | .text name :: .mark .colon :: rest =>
    let key := match name with | some s => Key.text s | none => .unreadable
    match ofTokens depth rest with
    | (value, none) => ([(key, value)], none, none)
    | (value, some ⟨after, shorter⟩) =>
      match after with
      | [] => ([(key, value)], some .truncated, none)
      | .mark .objectEnd :: more =>
        ([(key, value)], none, some ⟨more, by simp only [List.length_cons] at shorter ⊢; omega⟩)
      | .mark .comma :: more =>
        have : more.length < rest.length := by simp only [List.length_cons] at shorter; omega
        let (members, close, left) := membersOf depth more
        ((key, value) :: members, close, left.widen (by simp only [List.length_cons]; omega))
      | _ :: _ => ([(key, value)], some .malformed, none)
  | .text name :: rest =>
    let key := match name with | some s => Key.text s | none => .unreadable
    let fault : Fault := if rest.isEmpty then .truncated else .malformed
    ([(key, .broken fault fault)], none, none)
  | other :: _ => ([(strayKey other, .null)], none, none)
termination_by (ts.length, 1)

end

/-- The draft of a whole text, and the fault of what follows it. -/
def ofText (s : String) : Draft × Option Fault :=
  match ofTokens 0 (Token.scan s.toList) with
  | (d, some ⟨_ :: _, _⟩) => (d, some .malformed)
  | (d, _) => (d, none)

end Draft

/-- The value that a text spells. -/
def parse (s : String) : Except Fault Json := do
  let (draft, trailing) := Draft.ofText s
  let value ← draft.read
  Fault.raise trailing
  return value

end ComputedFields.Json
