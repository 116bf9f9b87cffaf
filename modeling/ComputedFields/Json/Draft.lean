import ComputedFields.Record.Misfit

namespace ComputedFields.Json

/-- How a text fails to be JSON: something stands there that may not, or it ends too early. -/
inductive Fault where
  | malformed
  | truncated
  deriving DecidableEq

/-- What stands in the place of a key. An `unreadable` key has the form of a text but spells no characters, and a
`stray` one is not a text at all. -/
inductive Key where
  | text (s : String)
  | unreadable
  | stray
  | broken (read skip : Fault)

/-- What a text reads as, up to its first fault. A node that is `unreadable` can be passed over but not read: a number
out of range, a text with half a surrogate pair, a list inside too many others. A `broken` node ends the draft, with one
fault for who reads it and one for who passes it over, and so does a `fragment` of a word or a numeral. The `close` of a
list or an object is the fault met in place of its end. -/
inductive Draft where
  | null
  | bool (b : Bool)
  | num (n : Number)
  | str (s : String)
  | arr (items : List Draft) (close : Option Fault)
  | obj (members : List (Key × Draft)) (close : Option Fault)
  | unreadable
  | broken (read skip : Fault)
  | fragment (read skip : Fault)

def Fault.raise : Option Fault → Except Fault Unit
  | none => .ok ()
  | some fault => .error fault

def Key.read : Key → Except Fault String
  | .text s => .ok s
  | .unreadable => .error .malformed
  | .stray => .error .malformed
  | .broken read _ => .error read

def Key.skip : Key → Except Fault Unit
  | .text _ => .ok ()
  | .unreadable => .ok ()
  | .stray => .error .malformed
  | .broken _ skip => .error skip

namespace Draft

def kind : Draft → Except Fault Kind
  | .null => .ok .null
  | .bool b => .ok (.bool b)
  | .num n => .ok (.num n)
  | .str s => .ok (.str s)
  | .arr .. => .ok .arr
  | .obj .. => .ok .obj
  | .unreadable => .error .malformed
  | .broken read _ => .error read
  | .fragment read _ => .error read

mutual

/-- The value of a draft, or its first fault. -/
def read : Draft → Except Fault Json
  | .null => .ok .null
  | .bool b => .ok (.bool b)
  | .num n => .ok (.num n)
  | .str s => .ok (.str s)
  | .arr items close => do
    let values ← readItems items
    Fault.raise close
    return .arr values
  | .obj members close => do
    let values ← readMembers [] members
    Fault.raise close
    return .obj values
  | .unreadable => .error .malformed
  | .broken fault _ => .error fault
  | .fragment fault _ => .error fault

def readItems : List Draft → Except Fault (List Json)
  | [] => .ok []
  | item :: rest => do
    let value ← read item
    return value :: (← readItems rest)

def readMembers (done : List (String × Json)) : List (Key × Draft) → Except Fault (List (String × Json))
  | [] => .ok done
  | (key, item) :: rest => do
    let name ← key.read
    let value ← read item
    readMembers (put name value done) rest

end

mutual

/-- Passes over a value that nobody reads. Only its form counts. -/
def skip : Draft → Except Fault Unit
  | .arr items close => do
    skipItems items
    Fault.raise close
  | .obj members close => do
    skipMembers members
    Fault.raise close
  | .broken _ fault => .error fault
  | .fragment _ fault => .error fault
  | _ => .ok ()

def skipItems : List Draft → Except Fault Unit
  | [] => .ok ()
  | item :: rest => do
    skip item
    skipItems rest

def skipMembers : List (Key × Draft) → Except Fault Unit
  | [] => .ok ()
  | (key, item) :: rest => do
    key.skip
    skip item
    skipMembers rest

end

/-- A list or an object inside too many others. -/
def buried (d : Draft) : Draft :=
  match d.skip with
  | .ok () => .unreadable
  | .error fault => .broken .malformed fault

end Draft

end ComputedFields.Json
