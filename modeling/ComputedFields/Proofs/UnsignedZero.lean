import ComputedFields.Pipeline.Basic
import Mathlib.Data.List.Basic

namespace ComputedFields

namespace Binary64

/-- The double with the sign of a zero left out. -/
def unsigned (x : Binary64) : Binary64 := { x with negative := x.negative && !x.isZero }

variable {x y : Binary64}

theorem isZero_unsigned (x : Binary64) : x.unsigned.isZero = x.isZero := rfl

theorem isFinite_unsigned (x : Binary64) : x.unsigned.isFinite = x.isFinite := rfl

theorem unsigned_of_nonzero (nonzero : ¬x.isZero = true) : x.unsigned = x := by
  simp only [unsigned, nonzero, Bool.not_false, Bool.and_true]

theorem magnitude_of_isZero (zero : x.isZero = true) : x.magnitude.val = 0 := beq_iff_eq.mp zero

/-- There is one zero of each sign. -/
theorem eq_of_zeros (zero : x.isZero = true) (zero' : y.isZero = true) (signs : x.negative = y.negative) : x = y := by
  have magnitudes : x.magnitude = y.magnitude :=
    Fin.ext ((magnitude_of_isZero zero).trans (magnitude_of_isZero zero').symm)
  cases x
  cases y
  exact congrArg₂ Binary64.mk signs magnitudes

/-- Doubles have the same value exactly if they are the same without the sign of a zero. -/
theorem sameValue_iff : x.sameValue y = true ↔ x.unsigned = y.unsigned := by
  rw [sameValue, Bool.or_eq_true, decide_eq_true_eq, Bool.and_eq_true]
  constructor
  · rintro (rfl | ⟨zero, zero'⟩)
    · rfl
    · have signs : x.unsigned.negative = y.unsigned.negative := by
        simp only [unsigned, zero, zero', Bool.not_true, Bool.and_false]
      exact eq_of_zeros zero zero' signs
  · intro equal
    have zeros : x.isZero = y.isZero := by rw [← isZero_unsigned x, equal, isZero_unsigned]
    by_cases zero : x.isZero = true
    · exact Or.inr ⟨zero, zeros ▸ zero⟩
    · rw [unsigned_of_nonzero zero, unsigned_of_nonzero (zeros ▸ zero)] at equal
      exact Or.inl equal

end Binary64

def Number.unsigned : Number → Number
  | .int n fits => .int n fits
  | .float x finite => .float x.unsigned (x.isFinite_unsigned.trans finite)

theorem Number.same_iff {m n : Number} : m.same n = true ↔ m.unsigned = n.unsigned := by
  cases m <;> cases n <;> simp [Number.same, Number.unsigned, Binary64.sameValue_iff]

def Literal.unsigned : Literal → Literal
  | .number n => .number n.unsigned
  | .text s => .text s

theorem Literal.same_iff {l m : Literal} : l.same m = true ↔ l.unsigned = m.unsigned := by
  cases l <;> cases m <;> simp [Literal.same, Literal.unsigned, Number.same_iff]

namespace Expr

mutual

/-- The expression with the sign of every float zero left out. -/
def unsigned : Expr → Expr
  | .field path => .field path
  | .literal l => .literal l.unsigned
  | .toDate e => .toDate e.unsigned
  | .toText e => .toText e.unsigned
  | .apply op args => .apply op (unsignedAll args)

def unsignedAll : List Expr → List Expr
  | [] => []
  | e :: rest => e.unsigned :: unsignedAll rest

end

theorem unsignedAll_eq_map (args : List Expr) : unsignedAll args = args.map unsigned := by
  induction args with
  | nil => simp only [unsignedAll, List.map_nil]
  | cons e rest ih => simp only [unsignedAll, List.map_cons, ih]

mutual

/-- Expressions are compared node by node, so the signs of zeros are all that may differ between them. -/
theorem same_iff (d e : Expr) : d.same e = true ↔ d.unsigned = e.unsigned := by
  cases d with
  | field p => cases e <;> simp [same, unsigned]
  | literal l => cases e <;> simp [same, unsigned, Literal.same_iff]
  | toDate d =>
    cases e with
    | toDate e => simp [same, unsigned, same_iff d e]
    | _ => simp [same, unsigned]
  | toText d =>
    cases e with
    | toText e => simp [same, unsigned, same_iff d e]
    | _ => simp [same, unsigned]
  | apply op args =>
    cases e with
    | apply other args' => simp [same, unsigned, sameAll_iff args args']
    | _ => simp [same, unsigned]

theorem sameAll_iff (args args' : List Expr) : sameAll args args' = true ↔ unsignedAll args = unsignedAll args' := by
  cases args with
  | nil => cases args' <;> simp [sameAll, unsignedAll]
  | cons d rest =>
    cases args' with
    | nil => simp [sameAll, unsignedAll]
    | cons e rest' => simp [sameAll, unsignedAll, same_iff d e, sameAll_iff rest rest']

end

end Expr

def Binding.unsigned (binding : Binding) : Binding := ⟨binding.name, binding.expr.unsigned⟩

theorem Binding.same_iff {a b : Binding} : a.same b = true ↔ a.unsigned = b.unsigned := by
  simp [Binding.same, Binding.unsigned, Expr.same_iff]

theorem sameBindings_iff (bindings others : List Binding) :
    sameBindings bindings others = true ↔ bindings.map Binding.unsigned = others.map Binding.unsigned := by
  induction bindings generalizing others with
  | nil => cases others <;> simp [sameBindings]
  | cons a rest ih =>
    cases others with
    | nil => simp [sameBindings]
    | cons b more => simp [sameBindings, Binding.same_iff, ih]

def Pipeline.unsigned (pipeline : Pipeline) : Pipeline :=
  ⟨pipeline.lookups, pipeline.bindings.map Binding.unsigned⟩

theorem Pipeline.same_iff {p q : Pipeline} : p.same q = true ↔ p.unsigned = q.unsigned := by
  simp [Pipeline.same, Pipeline.unsigned, sameBindings_iff]

namespace Outcome

/-- The outcome with the sign of every float zero left out. -/
def unsigned (outcome : Outcome) : Outcome := { outcome with pipeline := outcome.pipeline.map Pipeline.unsigned }

/-- Two outcomes are the same exactly if they differ in the signs of float zeros at most. -/
theorem same_iff {a b : Outcome} : a.same b = true ↔ a.unsigned = b.unsigned := by
  obtain ⟨valid, final, pipeline⟩ := a
  obtain ⟨valid', final', pipeline'⟩ := b
  cases pipeline <;> cases pipeline' <;> simp [same, unsigned, Pipeline.same_iff, and_assoc]

theorem same_refl (a : Outcome) : a.same a = true := same_iff.mpr rfl

/-- Of two outcomes that are the same, either may stand in for the other in a comparison. -/
theorem same_congr {a b : Outcome} (same : a.same b = true) (c : Outcome) : a.same c = b.same c := by
  rw [Bool.eq_iff_iff, same_iff, same_iff, same_iff.mp same]

end Outcome

end ComputedFields
