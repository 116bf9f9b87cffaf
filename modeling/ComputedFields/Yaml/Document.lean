import ComputedFields.Yaml.Lexer
import ComputedFields.Yaml.Node

namespace ComputedFields.Yaml

namespace Node

mutual

/-- How many events it takes to write a node down: one for a scalar or a reference, two for a collection. -/
def size : Node → Nat
  | .scalar _ _ _ => 1
  | .reference _ => 1
  | .anchored _ node => node.size
  | .list _ items => sizeOfItems items + 2
  | .map _ entries => sizeOfEntries entries + 2

def sizeOfItems : List Node → Nat
  | [] => 0
  | item :: items => item.size + sizeOfItems items

def sizeOfEntries : List (Node × Node) → Nat
  | [] => 0
  | (key, value) :: entries => key.size + value.size + sizeOfEntries entries

end

mutual

/-- The nodes with an anchor, in the order in which they start, before those in `after`. -/
def anchors (after : List (Nat × Node)) : Node → List (Nat × Node)
  | .scalar _ _ _ => after
  | .reference _ => after
  | .anchored id node => (id, node) :: node.anchors after
  | .list _ items => anchorsOfItems after items
  | .map _ entries => anchorsOfEntries after entries

def anchorsOfItems (after : List (Nat × Node)) : List Node → List (Nat × Node)
  | [] => after
  | item :: items => item.anchors (anchorsOfItems after items)

def anchorsOfEntries (after : List (Nat × Node)) : List (Node × Node) → List (Nat × Node)
  | [] => after
  | (key, value) :: entries => key.anchors (value.anchors (anchorsOfEntries after entries))

end

end Node

/-- The one document of a text. Of several anchors with one number the last counts, which stands first here. -/
structure Document where
  root : Node
  anchors : List (Nat × Node)
  jumpLimit : Nat

namespace Document

def ofRoot (root : Node) : Document := ⟨root, (root.anchors []).reverse, 100 * root.size⟩

def get? (document : Document) (id : Nat) : Option Node := (document.anchors.find? (·.1 == id)).map (·.2)

/-- What handles stand for unless the document says otherwise. -/
def defaultHandles : Node.Handles := [("!", .ofText "!"), ("!!", .common "")]

/-- The directives in front of a document and the handles they define. There is at most one version, which is 1.1 or
1.2, and one definition of each handle. -/
def directives (versioned : Bool) (handles : Node.Handles) : List Token → Option (Node.Handles × List Token)
  | .directive (.version major minor) :: rest =>
    if versioned || major != 1 || (minor != 1 && minor != 2) then none else directives true handles rest
  | .directive (.tag handle start) :: rest =>
    if handles.any (·.1 == handle) then none else directives versioned ((handle, start) :: handles) rest
  | rest => some (handles, rest)

/-- Nothing but ends of documents may follow the document. -/
def atEnd (ts : List Token) : Bool := ts.all (· matches .documentEnd)

def startsOutside : List Token → Bool
  | [] => true
  | .directive _ :: _ | .documentStart :: _ | .documentEnd :: _ => true
  | _ => false

def rootOf (handles : Node.Handles) (ts : List Token) : Option Node :=
  match Node.ofTokens handles true false [] ts with
  | some (root, _, rest) => if atEnd rest.val then some root else none
  | none => none

/-- A document starts with its content, or with directives and the mark of its start. An empty text is a document
without content. -/
def ofTokens (ts : List Token) : Option Node :=
  match ts with
  | [] => some Node.absent
  | .directive _ :: _ | .documentStart :: _ =>
    match directives false [] ts with
    | some (handles, .documentStart :: rest) =>
      if startsOutside rest then
        if atEnd rest then some Node.absent else none
      else rootOf (handles ++ defaultHandles) rest
    | _ => none
  | ts => rootOf defaultHandles ts

def ofText (text : String) : Option Document := do
  return ofRoot (← ofTokens (← Token.scan text))

end Document

end ComputedFields.Yaml
