import ComputedFields.Compile.Steps

namespace ComputedFields

/-- Passes outcomes on, but none that is the same as the one before it. -/
structure ChangeGate where
  last : Option Outcome := none
  /-- How many outcomes were passed on. The count has no bound here. One that is kept in a word of 64 bits shows the
  same number as long as fewer than `2 ^ 64` outcomes were passed on. -/
  emitted : Nat := 0

namespace ChangeGate

/-- What the gate passes on of an outcome, and the gate afterwards. -/
def offer (gate : ChangeGate) (outcome : Outcome) : Option Outcome × ChangeGate :=
  let unchanged :=
    match gate.last with
    | some last => last.same outcome
    | none => false
  if unchanged then (none, gate) else (some outcome, ⟨some outcome, gate.emitted + 1⟩)

def update (gate : ChangeGate) (scope : Scope) (steps : List Step) : Option Outcome × ChangeGate :=
  gate.offer (scope.compile steps)

/-- Forgets the last outcome, so that the next one is passed on in any case. -/
def reset (gate : ChangeGate) : ChangeGate := { gate with last := none }

end ChangeGate

end ComputedFields
