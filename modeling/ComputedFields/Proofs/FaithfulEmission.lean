import ComputedFields.Proofs.EmittedOrder

namespace ComputedFields

theorem Operator.find?_id (op : Operator) : Operator.all.find? (·.id == op.id) = some op := by
  have byName : (fun other : Operator => other.id == op.id) = fun other => other.name == op.name := by
    funext other
    rw [Bool.eq_iff_iff, beq_iff_eq, beq_iff_eq, Operator.id, Operator.id, ← String.toList_inj, String.toList_append,
      String.toList_append, List.append_cancel_left_eq, String.toList_inj]
  rw [byName, op.find?_name]

/-- No operator is applied under one of the keys that wrap a text or convert a value. -/
theorem Operator.id_ne_wrapper (op : Operator) : op.id ≠ "$literal" ∧ op.id ≠ "$toDate" ∧ op.id ≠ "$toString" := by
  cases op <;> decide

namespace Expr

def readText? : Json → Option Expr
  | .str s => some (.literal (.text s))
  | _ => none

mutual

/-- The expression that an emitted value stands for. -/
def read? : Json → Option Expr
  | .num n => some (.literal (.number n))
  | .str s =>
    match s.toList with
    | '$' :: path => some (.field (String.ofList path))
    | _ => some (.literal (.text s))
  | .obj [(key, body)] =>
    if key = "$literal" then readText? body
    else if key = "$toDate" then (read? body).map .toDate
    else if key = "$toString" then (read? body).map .toText
    else
      match Operator.all.find? (·.id == key) with
      | some op => (readArgs? body).map (.apply op)
      | none => none
  | _ => none

/-- A list holds all the arguments, any other value is the only one. -/
def readArgs? : Json → Option (List Expr)
  | .arr items => readAll? items
  | body => (read? body).map fun arg => [arg]

def readAll? : List Json → Option (List Expr)
  | [] => some []
  | item :: rest =>
    match read? item, readAll? rest with
    | some arg, some args => some (arg :: args)
    | _, _ => none

end

/-- No expression is emitted as an array, so a list of arguments can be told from a single one. -/
theorem emit_ne_arr (e : Expr) (items : List Json) : e.emit ≠ .arr items := by
  cases e with
  | literal l =>
    cases l with
    | number => simp [emit, Literal.emit]
    | text s =>
      rw [emit, Literal.emit]
      split <;> simp
  | _ => simp [emit]

theorem read?_emit_literal (l : Literal) : read? l.emit = some (.literal l) := by
  cases l with
  | number n => simp only [Literal.emit, read?]
  | text s =>
    by_cases dollar : s.toList.head? = some '$'
    · simp only [Literal.emit, dollar, if_true, read?, readText?]
    · simp only [Literal.emit, dollar, if_false, read?]
      split
      · rename_i path starts
        rw [starts] at dollar
        exact absurd rfl dollar
      · rfl

theorem readAll?_singleton {value : Json} {args : List Expr} (read : readAll? [value] = some args) :
    (read? value).map (fun arg => [arg]) = some args := by
  simp only [readAll?] at read
  split at read
  · rename_i atValue none
    cases none
    rw [atValue]
    exact read
  · cases read

/-- Whether the arguments stand in a list can be seen from outside, because no argument is a list itself. The number
of arguments need not be that of the operator. -/
theorem readArgs?_emitArgs (op : Operator) {args : List Expr} (all : readAll? (emitAll args) = some args) :
    readArgs? (emitArgs op (emitAll args)) = some args := by
  unfold emitArgs
  split
  · rename_i value _ alone
    have bare : ∀ items, value ≠ .arr items := by
      cases args with
      | nil => cases alone
      | cons arg rest =>
        simp only [emitAll, List.cons.injEq] at alone
        rw [← alone.1]
        exact arg.emit_ne_arr
    rw [alone] at all
    rw [readArgs?, readAll?_singleton all]
    exact bare
  · rw [readArgs?, all]

mutual

/-- Every expression can be read back from what is emitted for it. -/
theorem read?_emit (e : Expr) : read? e.emit = some e := by
  cases e with
  | field path =>
    have dollar : ("$" ++ path).toList = '$' :: path.toList := by rw [String.toList_append]; rfl
    simp only [emit, read?, dollar, String.ofList_toList]
  | literal l => exact read?_emit_literal l
  | toDate e => simp [emit, read?, read?_emit e]
  | toText e => simp [emit, read?, read?_emit e]
  | apply op args =>
    obtain ⟨noText, noDate, noConversion⟩ := op.id_ne_wrapper
    have read := readArgs?_emitArgs op (readAll?_emitAll args)
    simp only [emit, read?, noText, noDate, noConversion, if_false, op.find?_id, read, Option.map_some]

theorem readAll?_emitAll (args : List Expr) : readAll? (emitAll args) = some args := by
  cases args with
  | nil => simp only [emitAll, readAll?]
  | cons e rest => simp only [emitAll, readAll?, read?_emit e, readAll?_emitAll rest]

end

/-- Reading undoes emission, so no two expressions are emitted alike, however they are nested and whatever number of
arguments they have. -/
theorem emit_injective : Function.Injective emit := by
  intro d e same
  have read := d.read?_emit
  rw [same, e.read?_emit] at read
  exact (Option.some.inj read).symm

end Expr

theorem Json.put_of_new {α : Type} {key : String} {value : α} {members : List (String × α)}
    (new : key ∉ members.map Prod.fst) : Json.put key value members = members ++ [(key, value)] := by
  induction members with
  | nil => rfl
  | cons member rest ih =>
    obtain ⟨k, v⟩ := member
    rw [List.map_cons, List.mem_cons, not_or] at new
    rw [Json.put, if_neg (Ne.symm new.1), ih new.2, List.cons_append]

/-- Each name is bound once at most. -/
def Pipeline.BindsOnce (pipeline : Pipeline) : Prop := (pipeline.bindings.map (·.name)).Nodup

/-- Results of different names are emitted one by one, and none replaces another. -/
theorem emitBindings_of_nodup {bindings : List Binding} (once : (bindings.map (·.name)).Nodup) :
    emitBindings bindings = bindings.map fun binding => (binding.name, binding.expr.emit) := by
  induction bindings using List.reverseRecOn with
  | nil => rfl
  | append_singleton earlier binding ih =>
    rw [List.map_append, List.map_singleton, (List.perm_append_singleton _ _).nodup_iff, List.nodup_cons] at once
    have new : binding.name ∉ (emitBindings earlier).map Prod.fst := by
      rw [keys_emitBindings, List.mem_eraseDups]
      exact once.1
    rw [emitBindings_concat, Json.put_of_new new, ih once.2, List.map_append, List.map_singleton]

theorem Binding.member_injective :
    Function.Injective fun binding : Binding => (binding.name, binding.expr.emit) := by
  rintro ⟨name, e⟩ ⟨name', e'⟩ same
  have sameName : name = name' := (Prod.mk.inj same).1
  have sameExpr : e = e' := Expr.emit_injective (Prod.mk.inj same).2
  rw [sameName, sameExpr]

theorem Lookup.emit_injective : Function.Injective Lookup.emit := by
  rintro ⟨fromModel, localField, foreignModel, name, isMultiple, parent⟩
    ⟨fromModel', localField', foreignModel', name', isMultiple', parent'⟩ same
  cases parent <;> cases parent' <;> simp_all [Lookup.emit]

/-- As long as no name is bound twice, a pipeline can be read off its members again. -/
theorem Pipeline.emit_inj {pipeline other : Pipeline} (once : pipeline.BindsOnce) (once' : other.BindsOnce)
    (same : pipeline.emit = other.emit) : pipeline = other := by
  obtain ⟨lookups, bindings⟩ := pipeline
  obtain ⟨lookups', bindings'⟩ := other
  simp only [Pipeline.emit, emitBindings_of_nodup once, emitBindings_of_nodup once', Json.obj.injEq, List.cons.injEq,
    Prod.mk.injEq, Json.arr.injEq, true_and, and_true] at same
  have sameLookups : lookups = lookups' := List.map_injective_iff.mpr Lookup.emit_injective same.1
  have sameBindings : bindings = bindings' := List.map_injective_iff.mpr Binding.member_injective same.2
  rw [sameLookups, sameBindings]

/-- A value that may be missing is told from every other one, as long as none that is there is emitted as null. -/
theorem emitted_option_inj {α : Type} {emit : α → Json} (present : ∀ value, emit value ≠ .null) {a b : Option α}
    (inj : ∀ value ∈ a, ∀ other ∈ b, emit value = emit other → value = other)
    (same : (a.map emit).getD .null = (b.map emit).getD .null) : a = b := by
  cases a with
  | none =>
    cases b with
    | none => rfl
    | some other => exact absurd same.symm (present other)
  | some value =>
    cases b with
    | none => exact absurd same (present value)
    | some other => exact congrArg some (inj value rfl other rfl same)

/-- What is emitted for an expression tells it from all others, whatever is applied to whatever. The same is true of
a whole outcome as long as its names are bound once. -/
theorem emission_loses_nothing :
    Function.Injective Expr.emit ∧
      ∀ first second : Outcome, (∀ pipeline ∈ first.pipeline, pipeline.BindsOnce) →
        (∀ pipeline ∈ second.pipeline, pipeline.BindsOnce) → first.emit = second.emit → first = second := by
  refine ⟨Expr.emit_injective, ?_⟩
  rintro ⟨isValid, final, pipeline⟩ ⟨isValid', final', pipeline'⟩ once once' same
  simp only [Outcome.emit, Json.obj.injEq, List.cons.injEq, Prod.mk.injEq, Json.bool.injEq, true_and,
    and_true] at same
  obtain ⟨sameValid, emittedFinal, emittedPipeline⟩ := same
  have sameFinal : final = final' :=
    emitted_option_inj (fun _ => by simp) (fun _ _ _ _ => Json.str.inj) emittedFinal
  have samePipeline : pipeline = pipeline' :=
    emitted_option_inj (fun _ => by simp [Pipeline.emit])
      (fun p member q member' => Pipeline.emit_inj (once p member) (once' q member')) emittedPipeline
  rw [sameValid, sameFinal, samePipeline]

/-- A price, written in one way or another: the spelling of the operator does not matter, and nothing reads the second
operand of the first step. -/
def Scope.amounts.price (concat : String) (unread : Option Operand) : Outcome :=
  Scope.amounts.compile
    [{ output := "whole", operator := "$ceil", operand1 := .field "amount", operand2 := unread },
      { output := "price", operator := concat, operand1 := .constant (.str "$"),
        operand2 := some (.previousStep "whole") }]

/-- The two prices are emitted alike, so they are the same outcome. -/
theorem emission_of_prices :
    (∀ pipeline ∈ (Scope.amounts.price " concat" none).pipeline, pipeline.BindsOnce) ∧
      (∀ pipeline ∈ (Scope.amounts.price "$concat" (some (.field ""))).pipeline, pipeline.BindsOnce) ∧
        (Scope.amounts.price " concat" none).emit = (Scope.amounts.price "$concat" (some (.field ""))).emit ∧
          Scope.amounts.price " concat" none = Scope.amounts.price "$concat" (some (.field "")) := by
  have once : ∀ pipeline ∈ (Scope.amounts.price " concat" none).pipeline, pipeline.BindsOnce := by
    rintro _ ⟨⟩
    exact (by decide : ["whole", "price"].Nodup)
  exact ⟨once, once, rfl, emission_loses_nothing.2 _ _ once once rfl⟩

-- A name that is bound twice loses its first expression.
example : Pipeline.emit ⟨[], [⟨"a", .field "x"⟩, ⟨"a", .field "y"⟩]⟩ = Pipeline.emit ⟨[], [⟨"a", .field "y"⟩]⟩ := rfl

end ComputedFields
