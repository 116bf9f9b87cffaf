import ComputedFields.Record.Misfit

namespace ComputedFields

/-- How a value lays out the fields of a record: by name, or one after the other. A key is an action, because
reading it can fail. `close` fails if the value does not end where it should, `surplus` is what to do about items
that no field takes. -/
inductive Layout (m : Type → Type) (ν : Type) where
  | keyed (members : List (m String × ν)) (close : m Unit)
  | placed (items : List ν) (close surplus : m Unit)

/-- How the nodes `ν` of a data format are read, with failures and state in `m`. -/
structure Format (m : Type → Type) (ν : Type) where
  text : ν → m String
  flag : ν → m Bool
  value : ν → m Json
  choice : List String → ν → m String
  optional : {α : Type} → (ν → m α) → ν → m (Option α)
  list : {α : Type} → (ν → m α) → ν → m (List α)
  layout : String → ν → m (Layout m ν)
  skip : ν → m Unit
  misfit : {α : Type} → Misfit → m α

/-- One field of a record whose fields are collected in `σ`. -/
structure Slot (m : Type → Type) (ν σ : Type) where
  name : String
  required : Bool
  isFilled : σ → Bool
  fill : ν → σ → m σ

namespace Format

variable {m : Type → Type} [Monad m] {ν σ : Type}

/-- A repeated field is noticed at its second key, before the value is looked at. Fields nobody asks for are passed
over. -/
def fillMember (F : Format m ν) (slots : List (Slot m ν σ)) (parts : σ) (member : m String × ν) : m σ := do
  let key ← member.1
  match slots.find? (·.name == key) with
  | some slot =>
    if slot.isFilled parts then F.misfit (.duplicateField slot.name) else slot.fill member.2 parts
  | none =>
    F.skip member.2
    return parts

/-- Fills the slots in order. Optional ones may be missing at the end; a required one that is missing is reported by
its index. -/
def fillInOrder (F : Format m ν) (expected : String) (close surplus : m Unit) :
    Nat → List (Slot m ν σ) → List ν → σ → m σ
  | _, [], [], parts => do
    close
    return parts
  | _, [], _ :: _, parts => do
    surplus
    return parts
  | index, slot :: slots, item :: items, parts => do
    let parts ← slot.fill item parts
    fillInOrder F expected close surplus (index + 1) slots items parts
  | index, slot :: slots, [], parts => do
    close
    match (slot :: slots).findIdx? (·.required) with
    | some missing => F.misfit (.wrongLength (index + missing) expected)
    | none => return parts

/-- Collects the fields of the record `name` from a node. -/
def gather (F : Format m ν) (name : String) (slots : List (Slot m ν σ)) (empty : σ) (node : ν) : m σ := do
  match ← F.layout ("struct " ++ name) node with
  | .keyed members close =>
    let parts ← members.foldlM (F.fillMember slots) empty
    close
    return parts
  | .placed items close surplus =>
    let noun := if slots.length = 1 then "element" else "elements"
    F.fillInOrder s!"struct {name} with {slots.length} {noun}" close surplus 0 slots items empty

def need {α : Type} (F : Format m ν) (name : String) : Option α → m α
  | some a => pure a
  | none => F.misfit (.missingField name)

end Format

end ComputedFields
