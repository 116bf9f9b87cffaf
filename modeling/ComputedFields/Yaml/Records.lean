import ComputedFields.Record.Format
import ComputedFields.Yaml.Document
import ComputedFields.Yaml.Scalar

namespace ComputedFields.Yaml

/-- Reading fails without a reason, and counts how often it followed a reference. -/
abbrev Reading : Type → Type := StateT Nat Option

/-- A node, and how many more collections may be open inside it. -/
structure Place where
  node : Node
  depth : Nat

/-- So many collections may be open at once. -/
def depthLimit : Nat := 128

namespace Place

/-- The place one collection further in. -/
def enter (place : Place) : Reading Nat :=
  match place.depth with
  | 0 => failure
  | depth + 1 => pure depth

def readText (place : Place) : Reading String :=
  match place.node with
  | .scalar _ _ text => pure text
  | _ => failure

/-- A truth value is written plainly, or as a literal block with the tag for it. -/
def readFlag (place : Place) : Reading Bool :=
  match place.node with
  | .scalar tag style text =>
    if style = .plain || (style = .literal && tag == some (.common "bool")) then StateT.lift (Scalar.flag? text)
    else failure
  | _ => failure

/-- A variant is written as its name, or as a tag without content. -/
def readChoice (known : List String) (place : Place) : Reading String :=
  match place.node with
  | .scalar tag style text =>
    let name : Option String :=
      match tag.bind TagName.localName? with
      | some name => if style = .plain && Scalar.isNull text then some name else none
      | none => some text
    StateT.lift (name.filter known.contains)
  | _ => failure

def readOptional {α : Type} (read : Place → Reading α) (place : Place) : Reading (Option α) :=
  match place.node with
  | .scalar none .plain text => if Scalar.isNull text then pure none else some <$> read place
  | .scalar (some tag) .plain text =>
    if tag = .common "null" then
      if Scalar.isNullWord text then pure none else failure
    else some <$> read place
  | _ => some <$> read place

/-- A list that is left out is empty. -/
def readList {α : Type} (read : Place → Reading α) (place : Place) : Reading (List α) :=
  match place.node with
  | .list _ items => do
    let depth ← place.enter
    items.mapM fun item => read ⟨item, depth⟩
  | .scalar _ .plain "" => pure []
  | _ => failure

def layout (readKey : Place → Reading String) (place : Place) : Reading (Layout Reading Place) :=
  match place.node with
  | .map _ entries => do
    let depth ← place.enter
    return .keyed (entries.map fun (key, value) => (readKey ⟨key, depth⟩, ⟨value, depth⟩)) (pure ())
  | .scalar _ .plain "" => pure (.keyed [] (pure ()))
  | _ => failure

end Place

namespace Document

/-- The node that a node stands for. -/
def follow (document : Document) (node : Node) : Reading Node :=
  match node with
  | .reference id => do
    let jumps := (← get) + 1
    set jumps
    if document.jumpLimit < jumps then failure else StateT.lift (document.get? id)
  | .anchored _ node => pure node
  | node => pure node

def following {α : Type} (document : Document) (read : Place → Reading α) (place : Place) : Reading α := do
  read ⟨← document.follow place.node, place.depth⟩

def readEntry (document : Document) (read : Node → Reading Json) (object : List (String × Json)) (entry : Node × Node) :
    Reading (List (String × Json)) := do
  let key ← document.following Place.readText ⟨entry.1, 0⟩
  return Json.put key (← read entry.2) object

/-- The value of a node, with at most `depth` collections open inside it. -/
def readValue (document : Document) (depth : Nat) (node : Node) : Reading Json := do
  match ← document.follow node, depth with
  | .scalar tag style text, _ => StateT.lift (Scalar.value? tag style text)
  | .list tag items, depth + 1 =>
    if (tag.bind TagName.localName?).isSome then failure else Json.arr <$> items.mapM (document.readValue depth)
  | .map tag entries, depth + 1 =>
    if (tag.bind TagName.localName?).isSome then failure
    else Json.obj <$> entries.foldlM (document.readEntry (document.readValue depth)) []
  | _, _ => failure
termination_by depth

/-- Records in a document. -/
def format (document : Document) : Format Reading Place where
  text := document.following Place.readText
  flag := document.following Place.readFlag
  value place := document.readValue place.depth place.node
  choice known := document.following (Place.readChoice known)
  optional read := document.following (Place.readOptional read)
  list read := document.following (Place.readList read)
  layout _ := document.following (Place.layout (document.following Place.readText))
  skip _ := pure ()
  misfit _ := failure

end Document

/-- Reads a record that makes up a whole text. -/
def readText {α : Type} (read : Format Reading Place → Place → Reading α) (text : String) : Option α := do
  let document ← Document.ofText text
  (read document.format ⟨document.root, depthLimit⟩).run' 0

end ComputedFields.Yaml
