import ComputedFields.Proofs.GatedRun

namespace ComputedFields

/-- The sign of a float zero. -/
def Number.zeroSign? : Number → Option Bool
  | .int _ _ => none
  | .float x _ => if x.isZero then some x.negative else none

/-- The sign of the float zero that a date operator of the step is given as its constant. -/
def Step.dateZero? (step : Step) : Option Bool :=
  match Operator.ofText step.operator, step.operand1 with
  | .ok op, ⟨.constant, .num n⟩ => if op.family = .date then n.zeroSign? else none
  | _, _ => none

/-- At some place in both lists a date operator is given a float zero, and these two zeros differ in sign. -/
def OppositeZeros (steps steps' : List Step) : Prop :=
  ∃ (index : Nat) (step step' : Step) (sign : Bool), steps[index]? = some step ∧ steps'[index]? = some step' ∧
    step.dateZero? = some sign ∧ step'.dateZero? = some (!sign)

/-- Lists that a function makes equal differ at some place, if at all. -/
theorem exists_ne_of_map_eq {α β : Type} {f : α → β} {xs ys : List α} (same : xs.map f = ys.map f)
    (differ : xs ≠ ys) : ∃ (i : Nat) (x y : α), xs[i]? = some x ∧ ys[i]? = some y ∧ f x = f y ∧ x ≠ y := by
  by_contra nowhere
  apply differ
  apply List.ext_getElem?
  intro i
  have atIndex := congrArg (·[i]?) same
  simp only [List.getElem?_map] at atIndex
  cases atX : xs[i]? with
  | none =>
    rw [atX, Option.map_none, eq_comm, Option.map_eq_none_iff] at atIndex
    exact atIndex.symm
  | some x =>
    rw [atX, Option.map_some, eq_comm, Option.map_eq_some_iff] at atIndex
    obtain ⟨y, atY, equal⟩ := atIndex
    by_contra different
    exact nowhere ⟨i, x, y, atX, atY, equal.symm, fun equal => different (atY ▸ congrArg some equal)⟩

theorem Binary64.units_of_isZero {x : Binary64} (zero : x.isZero = true) : x.units = 0 := by
  rw [units, magnitude_of_isZero zero]
  rfl

namespace Number

/-- Numbers that differ in the sign of a zero only are the two zeros among the floats. No other number has a sign to
lose. -/
theorem opposite_zeros {m n : Number} (same : m.unsigned = n.unsigned) (differ : m ≠ n) :
    ∃ sign, m.zeroSign? = some sign ∧ n.zeroSign? = some (!sign) := by
  cases m with
  | int m fits =>
    cases n with
    | int n fits' => exact absurd same differ
    | float => cases same
  | float x finite =>
    cases n with
    | int => cases same
    | float y finite' =>
      have value : x.sameValue y = true := Binary64.sameValue_iff.mpr (Number.float.inj same)
      rw [Binary64.sameValue, Bool.or_eq_true, decide_eq_true_eq, Bool.and_eq_true] at value
      rcases value with rfl | ⟨zero, zero'⟩
      · exact absurd rfl differ
      · have signs : y.negative ≠ x.negative := by
          intro signs
          obtain rfl := Binary64.eq_of_zeros zero zero' signs.symm
          exact differ rfl
        refine ⟨x.negative, ?_, ?_⟩
        · simp only [zeroSign?, zero, if_true]
        · simp only [zeroSign?, zero', if_true, Bool.eq_not.mpr signs]

/-- Both zeros are whole, so they have become an integer. -/
theorem unsigned_of_canonical? {x : Binary64} {n : Number} (canonical : canonical? x = some n) : n.unsigned = n := by
  cases n with
  | int => rfl
  | float y finite =>
    unfold canonical? at canonical
    split at canonical
    · split at canonical
      · unfold ofInt? at canonical
        split at canonical <;> cases canonical
      · rename_i fractional
        cases canonical
        have nonzero : ¬x.isZero = true := by
          intro zero
          have units := Binary64.units_of_isZero zero
          apply fractional
          simp [Binary64.isWhole, Binary64.truncate, units]
        rw [Number.unsigned]
        congr
        exact Binary64.unsigned_of_nonzero nonzero
    · cases canonical

end Number

/-- A constant is compiled to something without a float zero in it, unless it is a number of milliseconds. -/
theorem ConstantForm.signless_or {op : Operator} {value : Json} {e : Expr} (form : ConstantForm op value e) :
    (∃ n, op.family = .date ∧ value = .num n ∧ e = .toDate (.literal (.number n))) ∨
      e.unsigned = e ∧ ∀ n, e ≠ .toDate (.literal (.number n)) := by
  cases form with
  | milliseconds date => exact Or.inl ⟨_, date, rfl, rfl⟩
  | number _ canonical =>
    right
    simp [Expr.unsigned, Literal.unsigned, Number.unsigned_of_canonical? canonical]
  | date => simp [Expr.unsigned, Literal.unsigned]
  | text => simp [Expr.unsigned, Literal.unsigned]

/-- A number gets into an expression as it was entered only if it is to be a date. In all other expressions no zero has
a sign. -/
theorem Operand.expr?_cases {scope : Scope} {op : Operator} {operand : Operand} {e : Expr}
    (compiled : operand.expr? scope op = some e) :
    (∃ n, op.family = .date ∧ operand = .constant (.num n) ∧ e = .toDate (.literal (.number n))) ∨
      e.unsigned = e ∧ ∀ n, e ≠ .toDate (.literal (.number n)) := by
  obtain ⟨kind, value⟩ := operand
  rcases Operand.expr?_eq_some compiled with ⟨rfl, form⟩ | ⟨_, rfl⟩ | ⟨_, type, rfl⟩
  · rcases form.signless_or with ⟨n, date, rfl, same⟩ | signless
    · exact Or.inl ⟨n, date, rfl, same⟩
    · exact Or.inr signless
  · right
    unfold resultReference
    split <;> simp [Expr.unsigned]
  · right
    rcases coerceField_eq_or op type (.field (pathReference (Operand.text? ⟨kind, value⟩ |>.getD ""))) with same | same
    · simp [same, Expr.unsigned]
    · simp [same, Expr.unsigned]

theorem Operand.opposite_zeros {scope scope' : Scope} {op : Operator} {operand operand' : Operand} {e e' : Expr}
    (compiled : operand.expr? scope op = some e) (compiled' : operand'.expr? scope' op = some e')
    (same : e.unsigned = e'.unsigned) (differ : e ≠ e') :
    op.family = .date ∧ ∃ m n sign, operand = .constant (.num m) ∧ operand' = .constant (.num n) ∧
      m.zeroSign? = some sign ∧ n.zeroSign? = some (!sign) := by
  rcases expr?_cases compiled with ⟨m, date, rfl, rfl⟩ | ⟨signless, other⟩
  · rcases expr?_cases compiled' with ⟨n, _, rfl, rfl⟩ | ⟨signless', other'⟩
    · have numbers : m.unsigned = n.unsigned := by
        simpa only [Expr.unsigned, Literal.unsigned, Expr.toDate.injEq, Expr.literal.injEq,
          Literal.number.injEq] using same
      obtain ⟨sign, atM, atN⟩ := Number.opposite_zeros numbers fun equal => differ (by rw [equal])
      exact ⟨date, m, n, sign, rfl, rfl, atM, atN⟩
    · rw [signless'] at same
      exact absurd same.symm (other' m.unsigned)
  · rcases expr?_cases compiled' with ⟨n, _, rfl, rfl⟩ | ⟨signless', _⟩
    · rw [signless] at same
      exact absurd same (other n.unsigned)
    · rw [signless, signless'] at same
      exact absurd same differ

theorem Operator.arity_of_date (op : Operator) : op.family = .date → op.arity = .unary := by
  cases op <;> decide

theorem Step.dateZero?_eq {step : Step} {op : Operator} {n : Number} (spelled : op.Spelled step.operator)
    (date : op.family = .date) (constant : step.operand1 = .constant (.num n)) : step.dateZero? = n.zeroSign? := by
  simp only [Step.dateZero?, Operator.ofText_ok_iff.mpr spelled, constant, Operand.constant, date, if_true]

/-- Results that differ in the sign of a zero only are those of a date operator, which has but one operand. -/
theorem Step.Yields.opposite_zeros {scope scope' : Scope} {step step' : Step} {binding binding' : Binding}
    (yields : step.Yields scope binding) (yields' : step'.Yields scope' binding')
    (same : binding.unsigned = binding'.unsigned) (differ : binding ≠ binding') :
    ∃ sign, step.dateZero? = some sign ∧ step'.dateZero? = some (!sign) := by
  obtain ⟨op, args, spelled, rfl, matched⟩ := yields
  obtain ⟨op', args', spelled', rfl, matched'⟩ := yields'
  simp only [Binding.unsigned, Expr.unsigned, Binding.mk.injEq, Expr.apply.injEq, Expr.unsignedAll_eq_map] at same
  obtain ⟨output, rfl, sameArgs⟩ := same
  have differentArgs : args ≠ args' := fun equal => differ (by rw [output, equal])
  obtain ⟨position, e, e', atE, atE', sameExpr, differentExpr⟩ := exists_ne_of_map_eq sameArgs differentArgs
  obtain ⟨operand, atOperand, compiled⟩ := exists_getElem?_of_forall₂ matched.flip atE
  obtain ⟨operand', atOperand', compiled'⟩ := exists_getElem?_of_forall₂ matched'.flip atE'
  obtain ⟨date, m, n, sign, rfl, rfl, atM, atN⟩ := Operand.opposite_zeros compiled compiled' sameExpr differentExpr
  rw [Step.operandsOf, op.arity_of_date date] at atOperand atOperand'
  have first := List.mem_singleton.mp (List.mem_of_getElem? atOperand)
  have first' := List.mem_singleton.mp (List.mem_of_getElem? atOperand')
  rw [dateZero?_eq spelled date first.symm, dateZero?_eq spelled' date first'.symm]
  exact ⟨sign, atM, atN⟩

theorem Pipeline.implements_of_compile {scope : Scope} {steps : List Step} {pipeline : Pipeline}
    (produced : (scope.compile steps).pipeline = some pipeline) : pipeline.Implements scope steps := by
  unfold Scope.compile at produced
  split at produced
  · rename_i outcome run
    exact Pipeline.implements_of_tryCompile run produced
  · cases produced

/-- Outcomes that are the same and yet not equal have results at one place that differ in the sign of a zero. -/
theorem Outcome.exists_ne_binding {a b : Outcome} (same : a.unsigned = b.unsigned) (differ : a ≠ b) :
    ∃ (p q : Pipeline) (index : Nat) (binding other : Binding), a.pipeline = some p ∧ b.pipeline = some q ∧
      p.bindings[index]? = some binding ∧ q.bindings[index]? = some other ∧
        binding.unsigned = other.unsigned ∧ binding ≠ other := by
  obtain ⟨valid, final, pipeline⟩ := a
  obtain ⟨valid', final', pipeline'⟩ := b
  simp only [Outcome.unsigned, Outcome.mk.injEq] at same
  obtain ⟨rfl, rfl, pipelines⟩ := same
  cases pipeline with
  | none =>
    rw [Option.map_none, eq_comm, Option.map_eq_none_iff] at pipelines
    exact absurd (by rw [pipelines]) differ
  | some p =>
    rw [Option.map_some, eq_comm, Option.map_eq_some_iff] at pipelines
    obtain ⟨q, rfl, equal⟩ := pipelines
    obtain ⟨lookups, bindings⟩ := Pipeline.mk.inj equal
    have different : p.bindings ≠ q.bindings := by
      intro sameBindings
      apply differ
      rw [show p = q from congrArg₂ Pipeline.mk lookups.symm sameBindings]
    obtain ⟨index, binding, other, atBinding, atOther, sign, distinct⟩ := exists_ne_of_map_eq bindings.symm different
    exact ⟨p, q, index, binding, other, rfl, rfl, atBinding, atOther, sign, distinct⟩

/-- Outcomes of steps that are the same are equal, but for opposite zeros among the steps. -/
theorem Scope.opposite_zeros {scope scope' : Scope} {steps steps' : List Step}
    (same : (scope.compile steps).unsigned = (scope'.compile steps').unsigned)
    (differ : scope.compile steps ≠ scope'.compile steps') : OppositeZeros steps steps' := by
  obtain ⟨p, q, index, binding, other, produced, produced', atBinding, atOther, sameBinding, different⟩ :=
    Outcome.exists_ne_binding same differ
  have yields := (Pipeline.implements_of_compile produced).bindings
  have yields' := (Pipeline.implements_of_compile produced').bindings
  obtain ⟨step, atStep, yielded⟩ := exists_getElem?_of_forall₂ yields.flip atBinding
  obtain ⟨step', atStep', yielded'⟩ := exists_getElem?_of_forall₂ yields'.flip atOther
  obtain ⟨sign, atSign, atSign'⟩ := Step.Yields.opposite_zeros yielded yielded' sameBinding different
  exact ⟨index, step, step', sign, atStep, atStep', atSign, atSign'⟩

namespace GateCall

/-- What was passed on last in front of the call at `index` is the outcome of the update at `earlier`. -/
structure Holds (calls : List GateCall) (index earlier : Nat) (scope : Scope) (steps : List Step) : Prop where
  before : earlier < index
  update : calls[earlier]? = some (.update scope steps)
  passed : passedAt? calls earlier = some (scope.compile steps)
  silent : ∀ later, earlier < later → later < index → passedAt? calls later = none

/-- What a gate keeps is what it has passed on last. -/
theorem holds_of_last {calls : List GateCall} {index : Nat} {held : Outcome}
    (kept : (gateBefore calls index).last = some held) :
    ∃ earlier scope steps, Holds calls index earlier scope steps ∧ held = scope.compile steps := by
  induction index with
  | zero => cases kept
  | succ index ih =>
    cases passed : passedAt? calls index with
    | some outcome =>
      obtain ⟨scope, steps, atCall, rfl, kept'⟩ := update_of_passedAt? passed
      rw [kept'] at kept
      cases kept
      refine ⟨index, scope, steps, ⟨Nat.lt_succ_self index, atCall, passed, ?_⟩, rfl⟩
      intro later after before
      omega
    | none =>
      have noReset : calls[index]? ≠ some .reset := by
        intro atCall
        rw [last_after_reset atCall] at kept
        cases kept
      rw [gateBefore_succ_of_silent passed noReset] at kept
      obtain ⟨earlier, scope, steps, holds, rfl⟩ := ih kept
      refine ⟨earlier, scope, steps, ⟨Nat.lt_succ_of_lt holds.before, holds.update, holds.passed, ?_⟩, rfl⟩
      intro later after before
      rcases Nat.lt_succ_iff_lt_or_eq.mp before with sooner | rfl
      · exact holds.silent later after sooner
      · exact passed

/-- After every update, what was passed on last differs from the outcome of that update in the signs of float zeros at
most. The two are emitted as one text, unless a date operator has been given the opposite zero since. -/
theorem held_text_current {calls : List GateCall} {index : Nat} {scope : Scope} {steps : List Step}
    (atCall : calls[index]? = some (.update scope steps)) :
    ∃ earlier scope' steps', Holds calls (index + 1) earlier scope' steps' ∧
      (scope'.compile steps').unsigned = (scope.compile steps).unsigned ∧
        (¬OppositeZeros steps' steps →
          (scope'.compile steps').emit.render = (scope.compile steps).emit.render) := by
  obtain ⟨last, kept, same⟩ := last_after_update atCall
  obtain ⟨earlier, scope', steps', holds, rfl⟩ := holds_of_last kept
  have unsigned := Outcome.same_iff.mp same
  refine ⟨earlier, scope', steps', holds, unsigned, ?_⟩
  intro noZeros
  have equal : scope'.compile steps' = scope.compile steps := by
    by_contra differ
    exact noZeros (Scope.opposite_zeros unsigned differ)
  rw [equal]

theorem not_oppositeZeros_self (steps : List Step) : ¬OppositeZeros steps steps := by
  rintro ⟨index, step, step', sign, atStep, atStep', zero, zero'⟩
  rw [atStep] at atStep'
  cases atStep'
  rw [zero] at zero'
  simp at zero'

/-- A zero that is entered twice, with its sign both times. -/
def repeatedEpoch : List GateCall := List.replicate 2 (.update Scope.amounts (epoch true))

/-- The second entry is not passed on, and the text passed on before is the one it would have had. -/
theorem repeated_epoch_text_current :
    repeatedEpoch[1]? = some (.update Scope.amounts (epoch true)) ∧
      ∃ earlier scope steps, Holds repeatedEpoch 2 earlier scope steps ∧
        (scope.compile steps).unsigned = (Scope.amounts.compile (epoch true)).unsigned ∧
          ¬OppositeZeros steps (epoch true) ∧
            (scope.compile steps).emit.render = (Scope.amounts.compile (epoch true)).emit.render := by
  have atCall : repeatedEpoch[1]? = some (.update Scope.amounts (epoch true)) := rfl
  obtain ⟨earlier, scope, steps, holds, unsigned, text⟩ := held_text_current atCall
  have noZeros : ¬OppositeZeros steps (epoch true) := by
    cases List.eq_of_mem_replicate (List.mem_of_getElem? holds.update)
    exact not_oppositeZeros_self _
  exact ⟨atCall, earlier, scope, steps, holds, unsigned, noZeros, text noZeros⟩

/-- How the year of a zero is emitted. -/
def epochText (zero : String) : String :=
  "\x7b\"isValid\":true,\"final\":\"year\",\"pipeline\":\x7b\"lookups\":[],\"addFields\":" ++
    "\x7b\"year\":\x7b\"$year\":\x7b\"$toDate\":" ++ zero ++ "\x7d\x7d\x7d\x7d\x7d"

/-- The second zero is not passed on, and the text that has been passed on shows the sign of the first. -/
theorem opposite_zero_leaves_text_stale :
    epochs[1]? = some (.update Scope.amounts (epoch false)) ∧
      Holds epochs 2 0 Scope.amounts (epoch true) ∧
        (Scope.amounts.compile (epoch true)).emit.render = epochText "-0.0" ∧
          (Scope.amounts.compile (epoch false)).emit.render = epochText "0.0" ∧ epochText "-0.0" ≠ epochText "0.0" := by
  have silent : passedAt? epochs 1 = none := rfl
  refine ⟨rfl, ⟨by decide, rfl, rfl, ?_⟩, by decide +kernel, by decide +kernel, by decide +kernel⟩
  intro later after before
  obtain rfl : later = 1 := by omega
  exact silent

end GateCall

end ComputedFields
