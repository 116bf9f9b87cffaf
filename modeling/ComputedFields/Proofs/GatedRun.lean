import ComputedFields.ChangeGate
import ComputedFields.Proofs.EmittedOrder
import ComputedFields.Proofs.UnsignedZero

namespace ComputedFields

inductive GateCall where
  | update (scope : Scope) (steps : List Step)
  | reset

namespace ChangeGate

/-- What the gate passes on at a call, and the gate afterwards. -/
def call (gate : ChangeGate) : GateCall → Option Outcome × ChangeGate
  | .update scope steps => gate.update scope steps
  | .reset => (none, gate.reset)

/-- All that an offer can come to: the outcome is the same as the last one and the gate stays as it is, or the outcome
is passed on and kept. -/
theorem offer_cases (gate : ChangeGate) (outcome : Outcome) :
    (∃ last, gate.last = some last ∧ last.same outcome = true ∧ gate.offer outcome = (none, gate)) ∨
      (∀ last, gate.last = some last → last.same outcome = false) ∧
        gate.offer outcome = (some outcome, ⟨some outcome, gate.emitted + 1⟩) := by
  cases kept : gate.last with
  | none =>
    right
    constructor
    · rintro last ⟨⟩
    · simp only [offer, kept, Bool.false_eq_true, if_false]
  | some last =>
    cases same : last.same outcome with
    | true =>
      left
      refine ⟨last, rfl, same, ?_⟩
      simp only [offer, kept, same, if_true]
    | false =>
      right
      refine ⟨fun _ found => Option.some.inj found ▸ same, ?_⟩
      simp only [offer, kept, same, Bool.false_eq_true, if_false]

end ChangeGate

namespace GateCall

/-- A new gate after the calls in front of the one at `index`. -/
def gateBefore (calls : List GateCall) (index : Nat) : ChangeGate :=
  (calls.take index).foldl (fun gate call => (gate.call call).2) {}

/-- What is passed on at the call at `index`. -/
def passedAt? (calls : List GateCall) (index : Nat) : Option Outcome :=
  calls[index]?.bind fun call => ((gateBefore calls index).call call).1

/-- All that has been passed on in front of the call at `index`. -/
def passedBefore (calls : List GateCall) (index : Nat) : List Outcome :=
  (List.range index).filterMap (passedAt? calls)

/-- Every update in front of `index` has been followed by a reset. -/
def Renewed (calls : List GateCall) (index : Nat) : Prop :=
  ∀ earlier scope steps, earlier < index → calls[earlier]? = some (.update scope steps) →
    ∃ between, earlier < between ∧ between < index ∧ calls[between]? = some .reset

/-- Of the updates in front of `index`, the one with these inputs is the latest. -/
def UpdateBefore (calls : List GateCall) (index : Nat) (scope : Scope) (steps : List Step) : Prop :=
  ∃ earlier < index, calls[earlier]? = some (.update scope steps) ∧
    ∀ between, earlier < between → between < index → calls[between]? = some .reset

/-- An outcome that has to be passed on at `index`: there is none to compare it with, or it differs from that of the
latest update. -/
def IsNews (calls : List GateCall) (index : Nat) (outcome : Outcome) : Prop :=
  Renewed calls index ∨
    ∃ scope steps, UpdateBefore calls index scope steps ∧ (scope.compile steps).same outcome = false

section

variable {calls : List GateCall} {index : Nat} {scope : Scope} {steps : List Step}

theorem gateBefore_succ {call : GateCall} (atCall : calls[index]? = some call) :
    gateBefore calls (index + 1) = ((gateBefore calls index).call call).2 := by
  simp only [gateBefore, List.take_add_one, atCall, Option.toList_some, List.foldl_append, List.foldl_cons,
    List.foldl_nil]

theorem gateBefore_succ_of_none (past : calls[index]? = none) :
    gateBefore calls (index + 1) = gateBefore calls index := by
  simp only [gateBefore, List.take_add_one, past, Option.toList_none, List.append_nil]

theorem passedAt?_eq {call : GateCall} (atCall : calls[index]? = some call) :
    passedAt? calls index = ((gateBefore calls index).call call).1 := by
  rw [passedAt?, atCall, Option.bind_some]

theorem last_after_reset (atCall : calls[index]? = some .reset) : (gateBefore calls (index + 1)).last = none := by
  rw [gateBefore_succ atCall]
  rfl

/-- All that an update can come to in a run. -/
theorem update_cases (atCall : calls[index]? = some (.update scope steps)) :
    (∃ last, (gateBefore calls index).last = some last ∧ last.same (scope.compile steps) = true ∧
      passedAt? calls index = none ∧ gateBefore calls (index + 1) = gateBefore calls index) ∨
      (∀ last, (gateBefore calls index).last = some last → last.same (scope.compile steps) = false) ∧
        passedAt? calls index = some (scope.compile steps) ∧
          gateBefore calls (index + 1) = ⟨some (scope.compile steps), (gateBefore calls index).emitted + 1⟩ := by
  rw [passedAt?_eq atCall, gateBefore_succ atCall, ChangeGate.call, ChangeGate.update]
  rcases (gateBefore calls index).offer_cases (scope.compile steps) with
    ⟨last, kept, same, offered⟩ | ⟨changed, offered⟩
  · rw [offered]
    exact Or.inl ⟨last, kept, same, rfl, rfl⟩
  · rw [offered]
    exact Or.inr ⟨changed, rfl, rfl⟩

theorem passedBefore_succ (calls : List GateCall) (index : Nat) :
    passedBefore calls (index + 1) = passedBefore calls index ++ (passedAt? calls index).toList := by
  rw [passedBefore, List.range_succ, List.filterMap_append]
  cases passed : passedAt? calls index <;> simp [passedBefore, passed]

theorem emitted_gateBefore_succ (calls : List GateCall) (index : Nat) :
    (gateBefore calls (index + 1)).emitted =
      (gateBefore calls index).emitted + (passedAt? calls index).toList.length := by
  cases atCall : calls[index]? with
  | none =>
    rw [gateBefore_succ_of_none atCall, passedAt?, atCall]
    rfl
  | some call =>
    cases call with
    | reset =>
      rw [gateBefore_succ atCall, passedAt?_eq atCall]
      rfl
    | update scope steps =>
      rcases update_cases atCall with ⟨_, _, _, silent, unchanged⟩ | ⟨_, passed, grown⟩
      · rw [silent, unchanged]
        rfl
      · rw [passed, grown]
        rfl

/-- The gate counts what it passes on. -/
theorem emitted_gateBefore (calls : List GateCall) (index : Nat) :
    (gateBefore calls index).emitted = (passedBefore calls index).length := by
  induction index with
  | zero => rfl
  | succ index ih => rw [emitted_gateBefore_succ, passedBefore_succ, List.length_append, ih]

/-- The gate need not keep the outcome of the latest update, but it keeps one that is the same. -/
theorem last_after_update (atCall : calls[index]? = some (.update scope steps)) :
    ∃ last, (gateBefore calls (index + 1)).last = some last ∧ last.same (scope.compile steps) = true := by
  rcases update_cases atCall with ⟨last, kept, same, _, unchanged⟩ | ⟨_, _, grown⟩
  · rw [unchanged]
    exact ⟨last, kept, same⟩
  · rw [grown]
    exact ⟨_, rfl, Outcome.same_refl _⟩

/-- At an update only the outcome that the gate still has decides. What was passed on before that one is forgotten. -/
theorem passedAt?_iff (atCall : calls[index]? = some (.update scope steps)) :
    passedAt? calls index = some (scope.compile steps) ↔
      ∀ last, (gateBefore calls index).last = some last → last.same (scope.compile steps) = false := by
  rcases update_cases atCall with ⟨last, kept, same, silent, _⟩ | ⟨changed, passed, _⟩
  · simp [silent, kept, same]
  · exact iff_of_true passed changed

theorem renewed_after_reset (atCall : calls[index]? = some .reset) : Renewed calls (index + 1) := by
  intro earlier scope steps before atUpdate
  have different : earlier ≠ index := by
    rintro rfl
    rw [atCall] at atUpdate
    cases atUpdate
  exact ⟨index, by omega, by omega, atCall⟩

/-- Right after an update there is no other outcome to compare with than its own. -/
theorem isNews_after_update (atCall : calls[index]? = some (.update scope steps)) {outcome : Outcome} :
    IsNews calls (index + 1) outcome ↔ (scope.compile steps).same outcome = false := by
  constructor
  · rintro (renewed | ⟨scope', steps', ⟨earlier, before, atEarlier, resets⟩, differs⟩)
    · obtain ⟨between, above, below, _⟩ := renewed index scope steps (Nat.lt_succ_self index) atCall
      omega
    · have latest : earlier = index := by
        by_contra different
        have atReset := resets index (by omega) (Nat.lt_succ_self index)
        rw [atCall] at atReset
        cases atReset
      rw [latest, atCall] at atEarlier
      cases atEarlier
      exact differs
  · intro differs
    refine Or.inr ⟨scope, steps, ⟨index, Nat.lt_succ_self index, atCall, ?_⟩, differs⟩
    intro between above below
    omega

/-- The call just before decides: a reset leaves nothing to compare with, an update something that is the same as its
own outcome. -/
theorem passedAt?_iff_isNews (atCall : calls[index]? = some (.update scope steps)) :
    passedAt? calls index = some (scope.compile steps) ↔ IsNews calls index (scope.compile steps) := by
  rw [passedAt?_iff atCall]
  cases index with
  | zero =>
    have new : (gateBefore calls 0).last = none := rfl
    refine iff_of_true (fun last kept => ?_) (Or.inl fun earlier _ _ before => absurd before (Nat.not_lt_zero earlier))
    rw [new] at kept
    cases kept
  | succ index =>
    have inside := (List.getElem?_eq_some_iff.mp atCall).1
    cases previous : calls[index]? with
    | none =>
      have past := List.getElem?_eq_none_iff.mp previous
      omega
    | some call =>
      cases call with
      | reset =>
        refine iff_of_true (fun last kept => ?_) (Or.inl (renewed_after_reset previous))
        rw [last_after_reset previous] at kept
        cases kept
      | update scope' steps' =>
        obtain ⟨last, kept, same⟩ := last_after_update previous
        rw [isNews_after_update previous, ← Outcome.same_congr same, kept]
        exact ⟨fun changed => changed last rfl, fun differs _ found => Option.some.inj found ▸ differs⟩

/-- A call that passes nothing on leaves the gate as it is, unless it is a reset. -/
theorem gateBefore_succ_of_silent (silent : passedAt? calls index = none) (noReset : calls[index]? ≠ some .reset) :
    gateBefore calls (index + 1) = gateBefore calls index := by
  cases atCall : calls[index]? with
  | none => exact gateBefore_succ_of_none atCall
  | some call =>
    cases call with
    | reset => exact absurd atCall noReset
    | update scope steps =>
      rcases update_cases atCall with ⟨_, _, _, _, unchanged⟩ | ⟨_, passed, _⟩
      · exact unchanged
      · rw [silent] at passed
        cases passed

/-- As long as nothing is passed on or reset, the gate at the end is the gate at the start. -/
theorem gateBefore_of_silent {first second : Nat} (ordered : first ≤ second)
    (silent : ∀ between, first ≤ between → between < second →
      passedAt? calls between = none ∧ calls[between]? ≠ some .reset) :
    gateBefore calls second = gateBefore calls first := by
  induction second, ordered using Nat.le_induction with
  | base => rfl
  | succ second ordered ih =>
    obtain ⟨none, noReset⟩ := silent second ordered (Nat.lt_succ_self second)
    rw [gateBefore_succ_of_silent none noReset]
    exact ih fun between above below => silent between above (by omega)

/-- Only updates pass something on, and then their own outcome, which the gate keeps. -/
theorem update_of_passedAt? {outcome : Outcome} (passed : passedAt? calls index = some outcome) :
    ∃ scope steps, calls[index]? = some (.update scope steps) ∧ outcome = scope.compile steps ∧
      (gateBefore calls (index + 1)).last = some outcome := by
  obtain ⟨call, atCall, atGate⟩ := Option.bind_eq_some_iff.mp passed
  cases call with
  | reset => cases atGate
  | update scope steps =>
    rcases update_cases atCall with ⟨_, _, _, silent, _⟩ | ⟨_, passed', grown⟩
    · rw [silent] at passed
      cases passed
    · rw [passed'] at passed
      cases passed
      exact ⟨scope, steps, atCall, rfl, by rw [grown]⟩

end

/-- Two outcomes are the same if they differ in the signs of float zeros at most. Over any run of a new gate: the gate
keeps an outcome that is the same as that of the latest update, it passes on exactly what is news, it counts what it
passes on, and of two outcomes that it passes on one after the other without a reset the second is not the same as the
first. -/
theorem passes_exactly_news (calls : List GateCall) :
    (∀ outcome other : Outcome, outcome.same other = true ↔ outcome.unsigned = other.unsigned) ∧
    (∀ index scope steps, calls[index]? = some (.update scope steps) →
      (∃ last, (gateBefore calls (index + 1)).last = some last ∧ last.same (scope.compile steps) = true) ∧
        (IsNews calls index (scope.compile steps) → passedAt? calls index = some (scope.compile steps)) ∧
          (¬IsNews calls index (scope.compile steps) → passedAt? calls index = none)) ∧
      (∀ index, (gateBefore calls index).emitted = (passedBefore calls index).length) ∧
        (∀ index, calls[index]? = some .reset →
          (gateBefore calls (index + 1)).emitted = (gateBefore calls index).emitted) ∧
          ∀ first second earlier later, first < second → passedAt? calls first = some earlier →
            passedAt? calls second = some later →
              (∀ between, first < between → between < second →
                passedAt? calls between = none ∧ calls[between]? ≠ some .reset) →
                earlier.same later = false := by
  refine ⟨fun _ _ => Outcome.same_iff, ?_, emitted_gateBefore calls, ?_, ?_⟩
  · intro index scope steps atCall
    have news := passedAt?_iff_isNews atCall
    refine ⟨last_after_update atCall, news.mpr, fun old => ?_⟩
    rcases update_cases atCall with ⟨_, _, _, silent, _⟩ | ⟨_, passed, _⟩
    · exact silent
    · exact absurd (news.mp passed) old
  · intro index atCall
    rw [gateBefore_succ atCall]
    rfl
  · intro first second earlier later ordered passed passed' silent
    obtain ⟨_, _, _, _, kept⟩ := update_of_passedAt? passed
    obtain ⟨scope, steps, atCall, rfl, _⟩ := update_of_passedAt? passed'
    have unchanged : gateBefore calls second = gateBefore calls (first + 1) :=
      gateBefore_of_silent ordered fun between above below => silent between above below
    rw [← unchanged] at kept
    exact (passedAt?_iff atCall).mp passed' earlier kept

/-- The year of the first date, which is zero milliseconds after itself. The second operand is not read, it only keeps
the step from being blank. -/
def epoch (negative : Bool) : List Step :=
  [{ output := "year", operator := "$year",
      operand1 := .constant (.num (.float ⟨negative, ⟨0, by decide⟩⟩ (by cases negative <;> rfl))),
      operand2 := some (.field "amount") }]

/-- Two zeros that are the same, an update to no steps at all, and the same again after a reset. -/
def epochs : List GateCall :=
  [.update Scope.amounts (epoch true), .update Scope.amounts (epoch false), .update Scope.amounts [], .reset,
    .update Scope.amounts []]

/-- The second zero is no news, as it differs in its sign only. An update to no steps is news twice, because of the
reset in between. -/
theorem epochs_pass_exactly_news :
    (Scope.amounts.compile (epoch true)).unsigned = (Scope.amounts.compile (epoch false)).unsigned ∧
    (epochs[1]? = some (.update Scope.amounts (epoch false)) ∧
      ¬IsNews epochs 1 (Scope.amounts.compile (epoch false)) ∧ passedAt? epochs 1 = none) ∧
    (epochs[4]? = some (.update Scope.amounts []) ∧ IsNews epochs 4 .nothing ∧ passedAt? epochs 4 = some .nothing) ∧
    (epochs[3]? = some .reset ∧ (gateBefore epochs 4).emitted = (gateBefore epochs 3).emitted) ∧
    passedAt? epochs 0 = some (Scope.amounts.compile (epoch true)) ∧ passedAt? epochs 2 = some .nothing ∧
      (Scope.amounts.compile (epoch true)).same .nothing = false := by
  obtain ⟨same_iff, updates, _, resets, successive⟩ := passes_exactly_news epochs
  have start : epochs[0]? = some (.update Scope.amounts (epoch true)) := rfl
  have second : epochs[1]? = some (.update Scope.amounts (epoch false)) := rfl
  have again : epochs[4]? = some (.update Scope.amounts []) := rfl
  have same : (Scope.amounts.compile (epoch true)).same (Scope.amounts.compile (epoch false)) = true := by
    decide +kernel
  have old : ¬IsNews epochs 1 (Scope.amounts.compile (epoch false)) := by
    rw [isNews_after_update start, same]
    exact nofun
  have silent : passedAt? epochs 1 = none := (updates 1 _ _ second).2.2 old
  have news : IsNews epochs 4 .nothing := Or.inl (renewed_after_reset rfl)
  have differs := successive 0 2 (Scope.amounts.compile (epoch true)) .nothing (by decide) rfl rfl
    fun between above below => by
      obtain rfl : between = 1 := by omega
      exact ⟨silent, by simp [second]⟩
  refine ⟨(same_iff _ _).mp same, ⟨second, old, silent⟩, ?_⟩
  exact ⟨⟨again, news, (updates 4 _ _ again).2.1 news⟩, ⟨rfl, resets 3 rfl⟩, rfl, rfl, differs⟩

end GateCall

end ComputedFields
