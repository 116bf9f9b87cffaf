import ComputedFields.Proofs.CompiledRun
import ComputedFields.Proofs.RefusedStep

namespace ComputedFields

/-- How far a diagnosis has come: the names it knows, the latest first, and the lookups that are registered. -/
structure Progress where
  known : List String
  table : Lookup.Table

/-- One step further, whether the step compiles or not. -/
def Progress.next (scope : Scope) (progress : Progress) (step : Step) : Progress where
  known := if step.output.isEmpty then progress.known else step.output :: progress.known
  table := (step.compile scope progress.known progress.table).2

def Step.diagnosis (scope : Scope) (progress : Progress) (index : Nat) (step : Step) : Diagnosis where
  index := index
  id := step.id
  error := (failure? (step.compile scope progress.known progress.table).1).map (.step index)

/-- How far the diagnosis of `steps` has come in front of the one at `index`. -/
def Scope.progressBefore (scope : Scope) (steps : List Step) (index : Nat) : Progress :=
  (steps.take index).foldl (Progress.next scope) ⟨[], .empty⟩

/-- The names that steps in front of the one at `index` have, the latest first and without the empty ones. -/
def knownBefore (steps : List Step) (index : Nat) : List String :=
  ((namesBefore steps index).filter (!·.isEmpty)).reverse

/-- A diagnosis knows the names of all earlier steps, also of those that have failed. Only the empty name is left
out. -/
theorem mem_knownBefore {steps : List Step} {index : Nat} {name : String} :
    name ∈ knownBefore steps index ↔ name ≠ "" ∧ name ∈ namesBefore steps index := by
  simp only [knownBefore, List.mem_reverse, List.mem_filter, Bool.not_eq_true', and_comm, ← Bool.not_eq_true,
    String.isEmpty_iff, ne_eq]

namespace Scope

variable {scope : Scope} {steps : List Step}

theorem diagnoseFrom_cons (scope : Scope) (index : Nat) (progress : Progress) (step : Step) (rest : List Step) :
    scope.diagnoseFrom index progress.known progress.table (step :: rest) = step.diagnosis scope progress index ::
      scope.diagnoseFrom (index + 1) (progress.next scope step).known (progress.next scope step).table rest := by
  rw [diagnoseFrom, Step.diagnosis, Progress.next]
  rcases step.compile scope progress.known progress.table with ⟨result, grown⟩
  cases result <;> rfl

/-- Every step is diagnosed where the steps in front of it have led. -/
theorem diagnoseFrom_getElem? (scope : Scope) (start : Nat) (progress : Progress) (steps : List Step) (index : Nat) :
    (scope.diagnoseFrom start progress.known progress.table steps)[index]? = steps[index]?.map
      (Step.diagnosis scope ((steps.take index).foldl (Progress.next scope) progress) (start + index)) := by
  induction steps generalizing start progress index with
  | nil => rfl
  | cons step rest ih =>
    rw [diagnoseFrom_cons]
    cases index with
    | zero => rfl
    | succ index =>
      rw [List.getElem?_cons_succ, List.getElem?_cons_succ, ih, List.take_succ_cons, List.foldl_cons,
        Nat.add_right_comm, Nat.add_assoc]

/-- The entry of a step depends on the step and on what the diagnosis has gathered in front of it. -/
theorem diagnose_getElem? (scope : Scope) (filled : Step.isTrivial steps = false) (index : Nat) :
    (scope.diagnose steps)[index]? =
      steps[index]?.map (Step.diagnosis scope (scope.progressBefore steps index) index) := by
  have entry := scope.diagnoseFrom_getElem? 0 ⟨[], .empty⟩ steps index
  rw [Nat.zero_add] at entry
  rw [diagnose, filled, if_neg Bool.false_ne_true, progressBefore]
  exact entry

theorem diagnose_trivial (trivial : Step.isTrivial steps = true) :
    scope.diagnose steps = steps.mapIdx fun index step => ⟨index, step.id, none⟩ := by
  rw [diagnose, if_pos trivial]

theorem progressBefore_succ {index : Nat} {step : Step} (atStep : steps[index]? = some step) :
    scope.progressBefore steps (index + 1) = (scope.progressBefore steps index).next scope step := by
  simp only [progressBefore, List.take_add_one, atStep, Option.toList_some, List.foldl_append, List.foldl_cons,
    List.foldl_nil]

theorem progressBefore_succ_of_none {index : Nat} (past : steps[index]? = none) :
    scope.progressBefore steps (index + 1) = scope.progressBefore steps index := by
  simp only [progressBefore, List.take_add_one, past, Option.toList_none, List.append_nil]

/-- Which names are known can be read off the steps, without compiling any of them. -/
theorem progressBefore_known (scope : Scope) (steps : List Step) (index : Nat) :
    (scope.progressBefore steps index).known = knownBefore steps index := by
  induction index with
  | zero => rfl
  | succ index ih =>
    cases atStep : steps[index]? with
    | none =>
      rw [progressBefore_succ_of_none atStep, ih]
      simp only [knownBefore, namesBefore, List.take_add_one, atStep, Option.toList_none, List.append_nil]
    | some step =>
      rw [progressBefore_succ atStep, Progress.next, ih]
      simp only [knownBefore, namesBefore, List.take_add_one, atStep, Option.toList_some, List.map_append,
        List.map_cons, List.map_nil, List.filter_append, List.reverse_append, List.filter_cons, List.filter_nil]
      cases step.output.isEmpty <;> rfl

/-- Whatever has failed so far, the table serves the paths that were granted. -/
theorem progressBefore_represents (scope : Scope) (steps : List Step) (index : Nat) :
    ∃ used, (scope.progressBefore steps index).table.Represents scope used := by
  unfold progressBefore
  generalize steps.take index = earlier
  induction earlier using List.reverseRecOn with
  | nil => exact ⟨[], .empty scope⟩
  | append_singleton earlier step ih =>
    obtain ⟨used, represents⟩ := ih
    rw [List.foldl_append]
    obtain ⟨more, _, after⟩ := represents.after_compileStep _ step
    exact ⟨used ++ more, after⟩

/-- As long as no step fails, the pass and the diagnosis go through the same states. The pass ends with the first
error of the diagnosis. -/
theorem failure?_compileFrom (scope : Scope) (index : Nat) (prior : List String) (table : Lookup.Table)
    (steps : List Step) :
    failure? (scope.compileFrom index prior table steps) =
      (scope.diagnoseFrom index prior table steps).findSome? (·.error) := by
  induction steps generalizing index prior table with
  | nil => rfl
  | cons step rest ih =>
    rw [diagnoseFrom_cons scope index ⟨prior, table⟩, List.findSome?_cons, compileFrom, Step.diagnosis]
    rcases run : step.compile scope prior table with ⟨result, grown⟩
    cases result with
    | error e => rfl
    | ok binding =>
      obtain ⟨_, _, allowed, _, _, _, rfl⟩ := Step.compile_ok_iff.mp run
      have known : (Progress.next scope ⟨prior, table⟩ step).known = step.output :: prior :=
        if_neg fun empty => allowed.nonempty (String.isEmpty_iff.mp empty)
      have tabled : (Progress.next scope ⟨prior, table⟩ step).table = grown := by rw [Progress.next, run]
      simp only [failure?, Option.map_none]
      rw [known, tabled, ← ih]
      cases scope.compileFrom (index + 1) (step.output :: prior) grown rest <;> rfl

/-- The pass fails with the first error that the diagnosis shows. Up to there both have seen the same names and
lookups. -/
theorem failure?_tryCompile (scope : Scope) (steps : List Step) :
    failure? (scope.tryCompile steps) = (scope.diagnose steps).findSome? (·.error) := by
  cases filled : Step.isTrivial steps with
  | true =>
    rw [tryCompile_trivial filled, diagnose_trivial filled]
    refine (List.findSome?_eq_none_iff.mpr fun entry member => ?_).symm
    obtain ⟨index, bound, rfl⟩ := List.mem_mapIdx.mp member
    rfl
  | false =>
    rw [diagnose, filled, if_neg Bool.false_ne_true, ← failure?_compileFrom]
    cases run : scope.compileFrom 0 [] .empty steps with
    | error e => simp [tryCompile, filled, run, failure?]
    | ok pair =>
      have last := List.getLast?_eq_some_getLast (bindings_ne_nil filled run)
      rw [(tryCompile_ok_iff filled).mpr ⟨pair.1, pair.2, _, run, last, rfl⟩]
      rfl

theorem diagnose_entries (scope : Scope) (steps : List Step) :
    (scope.diagnose steps).map (fun entry => (entry.index, entry.id)) =
      steps.mapIdx fun index step => (index, step.id) := by
  refine List.ext_getElem? fun index => ?_
  rw [List.getElem?_map, List.getElem?_mapIdx]
  cases filled : Step.isTrivial steps with
  | true =>
    rw [diagnose_trivial filled, List.getElem?_mapIdx, Option.map_map]
    rfl
  | false =>
    rw [diagnose_getElem? scope filled, Option.map_map]
    rfl

theorem length_diagnose (scope : Scope) (steps : List Step) : (scope.diagnose steps).length = steps.length := by
  have lengths := congrArg List.length (scope.diagnose_entries steps)
  rwa [List.length_map, List.length_mapIdx] at lengths

/-- An error stands at the step that it is about, and there it is what is wrong with that step. -/
theorem diagnose_error {index : Nat} {entry : Diagnosis} {e : CompileError}
    (atEntry : (scope.diagnose steps)[index]? = some entry) (failed : entry.error = some e) :
    ∃ step wrong, steps[index]? = some step ∧ e = .step index wrong ∧
      failure? (step.compile scope (knownBefore steps index) (scope.progressBefore steps index).table).1 =
        some wrong := by
  cases filled : Step.isTrivial steps with
  | true =>
    rw [diagnose_trivial filled, List.getElem?_mapIdx] at atEntry
    obtain ⟨step, _, rfl⟩ := Option.map_eq_some_iff.mp atEntry
    cases failed
  | false =>
    rw [diagnose_getElem? scope filled] at atEntry
    obtain ⟨step, atStep, rfl⟩ := Option.map_eq_some_iff.mp atEntry
    obtain ⟨wrong, refused, rfl⟩ := Option.map_eq_some_iff.mp failed
    rw [progressBefore_known] at refused
    exact ⟨step, wrong, atStep, rfl, refused⟩

theorem diagnose_known {index position : Nat} {entry : Diagnosis} {name : String}
    (atEntry : (scope.diagnose steps)[index]? = some entry)
    (failed : entry.error = some (.step position (.operand (.unknownPreviousStep name)))) :
    name ∉ knownBefore steps index := by
  obtain ⟨step, wrong, _, same, refused⟩ := diagnose_error atEntry failed
  cases same
  obtain ⟨used, represents⟩ := scope.progressBefore_represents steps index
  rw [represents.failure?_compileStep] at refused
  rcases Option.or_eq_some_iff.mp refused with clash | ⟨_, fault⟩
  · obtain ⟨_, _, other⟩ := Option.map_eq_some_iff.mp clash
    cases other
  · exact Step.unknown_of_fault? fault

end Scope

/-- The diagnosis and the pass agree. There is an entry for each step, the pass goes through exactly if no entry has
an error, and otherwise it stops with the first error of the diagnosis. A name that an earlier step has, even one that
fails, is never reported as unknown. -/
theorem diagnosis_agrees_with_pass (scope : Scope) (steps : List Step) :
    (scope.diagnose steps).map (fun entry => (entry.index, entry.id)) =
        steps.mapIdx (fun index step => (index, step.id)) ∧
      ((∃ outcome, scope.tryCompile steps = .ok outcome) ↔ ∀ entry ∈ scope.diagnose steps, entry.error = none) ∧
      (∀ e, scope.tryCompile steps = .error e → ∃ index entry, index < steps.length ∧ e.step? = some index ∧
        (scope.diagnose steps)[index]? = some entry ∧ entry.error = some e ∧
          ∀ earlier ∈ (scope.diagnose steps).take index, earlier.error = none) ∧
      ∀ (index position : Nat) (entry : Diagnosis) (name : String), (scope.diagnose steps)[index]? = some entry →
        name ≠ "" → name ∈ namesBefore steps index →
          entry.error ≠ some (.step position (.operand (.unknownPreviousStep name))) := by
  refine ⟨scope.diagnose_entries steps, ?_, ?_, ?_⟩
  · rw [← failure?_eq_none_iff, scope.failure?_tryCompile, List.findSome?_eq_none_iff]
  · intro e failed
    rw [← failure?_eq_some_iff, scope.failure?_tryCompile, List.findSome?_eq_some_iff] at failed
    obtain ⟨earlier, entry, later, split, atError, none⟩ := failed
    have atEntry : (scope.diagnose steps)[earlier.length]? = some entry := by
      rw [split, List.getElem?_append_right le_rfl, Nat.sub_self, List.getElem?_cons_zero]
    have bound : earlier.length < steps.length := by
      rw [← scope.length_diagnose, split, List.length_append, List.length_cons]
      omega
    obtain ⟨_, _, _, rfl, _⟩ := Scope.diagnose_error atEntry atError
    refine ⟨earlier.length, entry, bound, rfl, atEntry, atError, ?_⟩
    rw [split, List.take_left]
    exact none
  · intro index position entry name atEntry proper before failed
    exact Scope.diagnose_known atEntry failed (mem_knownBefore.mpr ⟨proper, before⟩)

theorem diagnosis_of_broken_orders :
    Scope.orders.tryCompile Scope.orders.broken = .error (.step 1 (.path (.fieldNotFound "customer" "friend"))) ∧
      ∃ index entry, index < 3 ∧ some 1 = some index ∧
        (Scope.orders.diagnose Scope.orders.broken)[index]? = some entry ∧
          entry.error = some (.step 1 (.path (.fieldNotFound "customer" "friend"))) ∧
            ∀ earlier ∈ (Scope.orders.diagnose Scope.orders.broken).take index, earlier.error = none :=
  ⟨rfl, (diagnosis_agrees_with_pass Scope.orders Scope.orders.broken).2.2.1 _ rfl⟩

end ComputedFields
