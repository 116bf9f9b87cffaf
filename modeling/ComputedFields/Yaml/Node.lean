import ComputedFields.Yaml.Token

namespace ComputedFields.Yaml

/-- A value of a document. Anchors have numbers; a reference stands for the node that has its number. -/
inductive Node where
  | scalar (tag : Option TagName) (style : Style) (text : String)
  | list (tag : Option TagName) (items : List Node)
  | map (tag : Option TagName) (entries : List (Node × Node))
  | anchored (id : Nat) (node : Node)
  | reference (id : Nat)

/-- The numbers of the anchors by name, each name once. -/
abbrev Names : Type := List (String × Nat)

namespace Names

/-- A new anchor has the number of the names known before it. -/
def define (names : Names) (name : String) : Names :=
  (name, names.length) :: names.filter (·.1 != name)

def get? (names : Names) (name : String) : Option Nat := (names.find? (·.1 == name)).map (·.2)

end Names

namespace Node

/-- What stands where a node is left out. -/
def absent : Node := .scalar none .plain ""

/-- What the handles of tags stand for. -/
abbrev Handles : Type := List (String × TagName)

def resolveTag (handles : Handles) (tag : Tag) : Option TagName :=
  if tag.handle.isEmpty then some tag.suffix
  else (handles.find? (·.1 == tag.handle)).map fun entry => entry.2.append tag.suffix

/-- What was made of some tokens, with fewer than `n` of them left. -/
abbrev Made (α : Type) (n : Nat) : Type := Option (α × Names × { rest : List Token // rest.length < n })

def Made.widen {α : Type} {m n : Nat} (h : m ≤ n) : Made α m → Made α n
  | some (a, names, ⟨rest, shorter⟩) => some (a, names, ⟨rest, Nat.lt_of_lt_of_le shorter h⟩)
  | none => none

def Made.map {α β : Type} {n : Nat} (f : α → β) : Made α n → Made β n
  | some (a, names, rest) => some (f a, names, rest)
  | none => none

/-- What may stand in front of a node. -/
structure Properties where
  anchor : Option String
  tag : Option TagName

def Properties.define (properties : Properties) (names : Names) : Names :=
  match properties.anchor with
  | some name => names.define name
  | none => names

def Properties.wrap (properties : Properties) (names : Names) (node : Node) : Node :=
  match properties.anchor with
  | some _ => .anchored names.length node
  | none => node

/-- An anchor and a tag in front of a node, in either order. -/
def splitProperties :
    (ts : List Token) → Option String × Option Tag × { rest : List Token // rest.length ≤ ts.length }
  | .anchor name :: .tag label :: rest => (some name, some label, ⟨rest, by simp only [List.length_cons]; omega⟩)
  | .tag label :: .anchor name :: rest => (some name, some label, ⟨rest, by simp only [List.length_cons]; omega⟩)
  | .anchor name :: rest => (some name, none, ⟨rest, by simp only [List.length_cons]; omega⟩)
  | .tag label :: rest => (none, some label, ⟨rest, by simp only [List.length_cons]; omega⟩)
  | ts => (none, none, ⟨ts, Nat.le_refl _⟩)

/-- The properties in front of a node, unless the handle of the tag is not known. -/
def propertiesOf (handles : Handles) (ts : List Token) :
    Option (Properties × { rest : List Token // rest.length ≤ ts.length }) :=
  match splitProperties ts with
  | (anchor, none, rest) => some (⟨anchor, none⟩, rest)
  | (anchor, some label, rest) => (resolveTag handles label).map fun tag => (⟨anchor, some tag⟩, rest)

def endsItem : Token → Bool
  | .item | .blockEnd => true
  | _ => false

def endsLooseItem : Token → Bool
  | .item | .key | .value | .blockEnd => true
  | _ => false

def endsEntryPart : Token → Bool
  | .key | .value | .blockEnd => true
  | _ => false

def endsFlowKey : Token → Bool
  | .value | .comma | .flowMapEnd => true
  | _ => false

def endsFlowValue : Token → Bool
  | .comma | .flowMapEnd => true
  | _ => false

def endsPairKey : Token → Bool
  | .value | .comma | .flowListEnd => true
  | _ => false

def endsPairValue : Token → Bool
  | .comma | .flowListEnd => true
  | _ => false

def startsContent (inBlock loose : Bool) : List Token → Bool
  | .scalar _ _ :: _ | .flowListStart :: _ | .flowMapStart :: _ => true
  | .listStart :: _ | .mapStart :: _ => inBlock
  | .item :: _ => loose
  | _ => false

mutual

/-- One node. `inBlock` admits block collections, `loose` a list that is not indented. After an anchor or a tag the
content may be left out. -/
def ofTokens (handles : Handles) (inBlock loose : Bool) (names : Names) (ts : List Token) : Made Node ts.length :=
  match ts with
  | .reference name :: rest =>
    (names.get? name).map fun id => (.reference id, names, ⟨rest, by simp only [List.length_cons]; omega⟩)
  | ts =>
    match propertiesOf handles ts with
    | none => none
    | some (properties, ⟨rest, bound⟩) =>
      if startsContent inBlock loose rest then
        ((content handles properties.tag (properties.define names) rest).map (properties.wrap names)).widen bound
      else if shorter : rest.length < ts.length then
        some (properties.wrap names (.scalar properties.tag .plain ""), properties.define names, ⟨rest, shorter⟩)
      else none
termination_by 5 * ts.length + 1

/-- A scalar or a collection of any kind. -/
def content (handles : Handles) (tag : Option TagName) (names : Names) (ts : List Token) : Made Node ts.length :=
  match ts with
  | .scalar style text :: rest =>
    some (.scalar tag style text, names, ⟨rest, by simp only [List.length_cons]; omega⟩)
  | .flowListStart :: rest =>
    ((flowItems handles true names rest).map (.list tag)).widen (by simp only [List.length_cons]; omega)
  | .flowMapStart :: rest =>
    ((flowEntries handles true names rest).map (.map tag)).widen (by simp only [List.length_cons]; omega)
  | .listStart :: rest =>
    ((blockItems handles names rest).map (.list tag)).widen (by simp only [List.length_cons]; omega)
  | .mapStart :: rest =>
    ((blockEntries handles names rest).map (.map tag)).widen (by simp only [List.length_cons]; omega)
  | .item :: rest =>
    ((looseItems handles names rest).map (.list tag)).widen (by simp only [List.length_cons]; omega)
  | _ => none
termination_by 5 * ts.length

/-- A node, or nothing where what follows shows that it is left out. -/
def orAbsent (handles : Handles) (isEnd : Token → Bool) (inBlock loose : Bool) (names : Names) (ts : List Token) :
    Made Node (ts.length + 1) :=
  if ts.head?.any isEnd then some (absent, names, ⟨ts, Nat.lt_succ_self _⟩)
  else (ofTokens handles inBlock loose names ts).widen (Nat.le_succ _)
termination_by 5 * ts.length + 2

/-- The items of a block list up to its end. -/
def blockItems (handles : Handles) (names : Names) (ts : List Token) : Made (List Node) ts.length :=
  match ts with
  | .blockEnd :: rest => some ([], names, ⟨rest, by simp only [List.length_cons]; omega⟩)
  | .item :: rest =>
    match orAbsent handles endsItem true false names rest with
    | none => none
    | some (item, names, ⟨more, shorter⟩) =>
      ((blockItems handles names more).map (item :: ·)).widen (by simp only [List.length_cons]; omega)
  | _ => none
termination_by 5 * ts.length + 3

/-- The items of a list that is not indented, after the mark of its first item. -/
def looseItems (handles : Handles) (names : Names) (ts : List Token) : Made (List Node) (ts.length + 1) :=
  match orAbsent handles endsLooseItem true false names ts with
  | none => none
  | some (item, names, ⟨rest, shorter⟩) =>
    ((moreItems handles names rest).map (item :: ·)).widen (by omega)
termination_by 5 * ts.length + 4

def moreItems (handles : Handles) (names : Names) (ts : List Token) : Made (List Node) (ts.length + 1) :=
  match ts with
  | .item :: rest => (looseItems handles names rest).widen (by simp only [List.length_cons]; omega)
  | ts => some ([], names, ⟨ts, Nat.lt_succ_self _⟩)
termination_by 5 * ts.length + 3

/-- The value of an entry, if the mark of a value comes next. -/
def valueOf (handles : Handles) (isEnd : Token → Bool) (inBlock : Bool) (names : Names) (ts : List Token) :
    Made Node (ts.length + 1) :=
  match ts with
  | .value :: rest =>
    (orAbsent handles isEnd inBlock inBlock names rest).widen (by simp only [List.length_cons]; omega)
  | ts => some (absent, names, ⟨ts, Nat.lt_succ_self _⟩)
termination_by 5 * ts.length + 3

/-- The entries of a block mapping up to its end. -/
def blockEntries (handles : Handles) (names : Names) (ts : List Token) : Made (List (Node × Node)) ts.length :=
  match ts with
  | .blockEnd :: rest => some ([], names, ⟨rest, by simp only [List.length_cons]; omega⟩)
  | .key :: rest =>
    match orAbsent handles endsEntryPart true true names rest with
    | none => none
    | some (key, names, ⟨afterKey, shorter⟩) =>
      match valueOf handles endsEntryPart true names afterKey with
      | none => none
      | some (value, names, ⟨more, shorter'⟩) =>
        ((blockEntries handles names more).map ((key, value) :: ·)).widen (by simp only [List.length_cons]; omega)
  | _ => none
termination_by 5 * ts.length + 3

/-- The items of a flow list up to its bracket, with a comma before each but the first. -/
def flowItems (handles : Handles) (first : Bool) (names : Names) (ts : List Token) : Made (List Node) ts.length :=
  match ts with
  | .flowListEnd :: rest => some ([], names, ⟨rest, by simp only [List.length_cons]; omega⟩)
  | .comma :: .flowListEnd :: rest =>
    if first then none else some ([], names, ⟨rest, by simp only [List.length_cons]; omega⟩)
  | .comma :: rest =>
    if first then none else (flowItem handles names rest).widen (by simp only [List.length_cons]; omega)
  | ts => if first then flowItem handles names ts else none
termination_by 5 * ts.length + 4

/-- An item of a flow list, which may be a single entry of a mapping, and the items after it. -/
def flowItem (handles : Handles) (names : Names) (ts : List Token) : Made (List Node) ts.length :=
  match ts with
  | .key :: rest =>
    match pair handles names rest with
    | none => none
    | some (entry, names, ⟨more, shorter⟩) =>
      ((flowItems handles false names more).map (.map none [entry] :: ·)).widen
        (by simp only [List.length_cons]; omega)
  | ts =>
    match ofTokens handles false false names ts with
    | none => none
    | some (item, names, ⟨more, shorter⟩) =>
      ((flowItems handles false names more).map (item :: ·)).widen (by omega)
termination_by 5 * ts.length + 3

/-- The entry of a mapping that is an item of a flow list. Where its key is left out, the token after the mark is passed
over. -/
def pair (handles : Handles) (names : Names) (ts : List Token) : Made (Node × Node) (ts.length + 1) :=
  if ts.head?.any endsPairKey then
    ((valueOf handles endsPairValue false names ts.tail).map fun value => (absent, value)).widen
      (by simp only [List.length_tail]; omega)
  else
    match ofTokens handles false false names ts with
    | none => none
    | some (key, names, ⟨afterKey, shorter⟩) =>
      ((valueOf handles endsPairValue false names afterKey).map fun value => (key, value)).widen (by omega)
termination_by 5 * ts.length + 4

/-- The entries of a flow mapping up to its brace, with a comma before each but the first. -/
def flowEntries (handles : Handles) (first : Bool) (names : Names) (ts : List Token) :
    Made (List (Node × Node)) ts.length :=
  match ts with
  | .flowMapEnd :: rest => some ([], names, ⟨rest, by simp only [List.length_cons]; omega⟩)
  | .comma :: .flowMapEnd :: rest =>
    if first then none else some ([], names, ⟨rest, by simp only [List.length_cons]; omega⟩)
  | .comma :: rest =>
    if first then none else (flowEntry handles names rest).widen (by simp only [List.length_cons]; omega)
  | ts => if first then flowEntry handles names ts else none
termination_by 5 * ts.length + 4

/-- An entry of a flow mapping and the entries after it. Without a mark for its key it has no value. -/
def flowEntry (handles : Handles) (names : Names) (ts : List Token) : Made (List (Node × Node)) ts.length :=
  match ts with
  | .key :: rest =>
    match orAbsent handles endsFlowKey false false names rest with
    | none => none
    | some (key, names, ⟨afterKey, shorter⟩) =>
      match valueOf handles endsFlowValue false names afterKey with
      | none => none
      | some (value, names, ⟨more, shorter'⟩) =>
        ((flowEntries handles false names more).map ((key, value) :: ·)).widen (by simp only [List.length_cons]; omega)
  | ts =>
    match ofTokens handles false false names ts with
    | none => none
    | some (key, names, ⟨more, shorter⟩) =>
      ((flowEntries handles false names more).map ((key, absent) :: ·)).widen (by omega)
termination_by 5 * ts.length + 3

end

end Node

end ComputedFields.Yaml
