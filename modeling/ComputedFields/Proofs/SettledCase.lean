import ComputedFields.Schema.FieldType
import Mathlib.Data.List.DropRight

namespace ComputedFields.Text

/-- The least and the greatest of the small letters that a run leads to. -/
def CaseRun.low (run : CaseRun) : Nat := Int.toNat (run.first + run.shift)

def CaseRun.high (run : CaseRun) : Nat := Int.toNat (run.last + run.shift)

/-- The small letters of a run skip every second place, or there is but one. -/
def CaseRun.alternates (run : CaseRun) : Bool := run.stride == 2 || run.first == run.last

/-- No letter from `low` to `high` is a capital of the run: they lie apart, or both skip every second place and the
letters of the one fall between those of the other. -/
def CaseRun.misses (low high : Nat) (alternating : Bool) (run : CaseRun) : Bool :=
  Nat.blt high run.first || Nat.blt run.last low ||
    (alternating && run.stride == 2 && (low + run.first) % 2 == 1)

/-- The blanks as ranges of code points, and with them the one capital that is in no run. -/
def outsiders : List (Nat × Nat) :=
  [(0x130, 0x130), (9, 13), (0x20, 0x20), (0x85, 0x85), (0xA0, 0xA0), (0x1680, 0x1680), (0x2000, 0x200A),
    (0x2028, 0x2029), (0x202F, 0x202F), (0x205F, 0x205F), (0x3000, 0x3000)]

/-- The run leads to characters, and to none of the outsiders. -/
def CaseRun.isSound (run : CaseRun) : Bool :=
  0 ≤ run.first + run.shift && (run.high < 0xD800 || (0xDFFF < run.low && run.high < 0x110000)) &&
    outsiders.all fun range => Nat.blt range.2 run.low || Nat.blt run.high range.1

/-- Checked for the whole table: every run leads to characters, and neither to a blank nor to the capital outside the
table. -/
theorem caseRuns_sound : caseRuns.all CaseRun.isSound = true := by decide +kernel

/-- Checked for the whole table: no small letter of a run is a capital of any run, so there is nothing left to be
lowered a second time. -/
theorem caseRuns_miss :
    caseRuns.all (fun run => caseRuns.all (CaseRun.misses run.low run.high run.alternates)) = true := by
  decide +kernel

theorem mem_outsiders_of_isBlank {c : Char} (blank : isBlank c = true) :
    ∃ range ∈ outsiders, range.1 ≤ c.toNat ∧ c.toNat ≤ range.2 := by
  simp only [isBlank, Bool.or_eq_true, Bool.and_eq_true, decide_eq_true_eq, beq_iff_eq] at blank
  simp only [outsiders, List.exists_mem_cons_iff, List.not_mem_nil, false_and, exists_false, or_false]
  omega

section

variable {run other : CaseRun} {n : Nat}

theorem CaseRun.holds_iff : run.holds n = true ↔ run.first ≤ n ∧ n ≤ run.last ∧ (n - run.first) % run.stride = 0 := by
  simp only [CaseRun.holds, Bool.and_eq_true, decide_eq_true_eq, beq_iff_eq, and_assoc]

theorem CaseRun.image_bounds (holds : run.holds n = true) :
    run.low ≤ Int.toNat (n + run.shift) ∧ Int.toNat (n + run.shift) ≤ run.high := by
  rw [CaseRun.holds_iff] at holds
  simp only [CaseRun.low, CaseRun.high]
  omega

theorem CaseRun.not_holds_of_misses (within : 0 ≤ run.first + run.shift)
    (misses : other.misses run.low run.high run.alternates = true) (holds : run.holds n = true) :
    other.holds (Int.toNat (n + run.shift)) = false := by
  have bounds := CaseRun.image_bounds holds
  rw [CaseRun.holds_iff] at holds
  simp only [CaseRun.misses, CaseRun.alternates, Bool.or_eq_true, Bool.and_eq_true, Nat.blt_eq, beq_iff_eq] at misses
  rw [← Bool.not_eq_true, CaseRun.holds_iff]
  rintro ⟨above, below, onGrid⟩
  rcases misses with (apart | apart) | ⟨⟨alternates, pace⟩, odd⟩
  · omega
  · omega
  · have even : (n - run.first) % 2 = 0 := by
      rcases alternates with pace' | single
      · exact pace' ▸ holds.2.2
      · omega
    rw [pace] at onGrid
    simp only [CaseRun.low] at odd
    omega

end

/-- A character that lower-casing leaves alone. -/
def Settled (c : Char) : Prop := c ≠ '\u0130' ∧ ∀ run ∈ caseRuns, run.holds c.toNat = false

instance (c : Char) : Decidable (Settled c) := inferInstanceAs (Decidable (_ ∧ _))

theorem Settled.lowerChar {c : Char} (settled : Settled c) : lowerChar c = [c] := by
  have none : caseRuns.find? (·.holds c.toNat) = none :=
    List.find?_eq_none.mpr fun run member => by simp [settled.2 run member]
  rw [Text.lowerChar, if_neg settled.1, none]

theorem Settled.ne_sigma {c : Char} (settled : Settled c) : c ≠ '\u03a3' := by
  rintro rfl
  exact absurd settled (by decide +kernel)

/-- What a letter becomes: the two characters of the dotted capital, the small letter of a run, or itself. -/
theorem lowerChar_cases (c : Char) :
    Text.lowerChar c = ['i', '\u0307'] ∨
      (∃ run ∈ caseRuns, run.holds c.toNat = true ∧
        Text.lowerChar c = [Char.ofNat (Int.toNat (c.toNat + run.shift))]) ∨
      Settled c := by
  by_cases dotted : c = '\u0130'
  · exact Or.inl (by rw [Text.lowerChar, if_pos dotted])
  · cases found : caseRuns.find? (·.holds c.toNat) with
    | some run =>
      refine Or.inr (Or.inl ⟨run, List.mem_of_find?_eq_some found, by simpa using List.find?_some found, ?_⟩)
      rw [Text.lowerChar, if_neg dotted, found]
    | none =>
      exact Or.inr (Or.inr ⟨dotted, fun run member => by simpa using List.find?_eq_none.mp found run member⟩)

/-- The small letter of a run is settled, and it is no blank. -/
theorem settled_of_holds {run : CaseRun} {n : Nat} (member : run ∈ caseRuns) (holds : run.holds n = true) :
    Settled (Char.ofNat (Int.toNat (n + run.shift))) ∧ isBlank (Char.ofNat (Int.toNat (n + run.shift))) = false := by
  have sound := List.all_eq_true.mp caseRuns_sound run member
  simp only [CaseRun.isSound, Bool.and_eq_true, Bool.or_eq_true, decide_eq_true_eq, List.all_eq_true,
    Nat.blt_eq] at sound
  obtain ⟨⟨within, valid⟩, outside⟩ := sound
  have bounds := CaseRun.image_bounds holds
  have isChar : (Int.toNat (n + run.shift)).isValidChar := by
    unfold Nat.isValidChar
    omega
  have code : (Char.ofNat (Int.toNat (n + run.shift))).toNat = Int.toNat (n + run.shift) := by
    rw [Char.ofNat, dif_pos isChar]
    rfl
  have insider : ¬∃ range ∈ outsiders, range.1 ≤ (Char.ofNat (Int.toNat (n + run.shift))).toNat ∧
      (Char.ofNat (Int.toNat (n + run.shift))).toNat ≤ range.2 := by
    rintro ⟨range, among, above, below⟩
    rw [code] at above below
    have apart := outside range among
    omega
  refine ⟨⟨fun dotted => ?_, fun other among => ?_⟩, ?_⟩
  · rw [dotted] at insider
    exact insider (by decide)
  · rw [code]
    have misses := List.all_eq_true.mp (List.all_eq_true.mp caseRuns_miss run member) other among
    exact CaseRun.not_holds_of_misses within misses holds
  · rw [← Bool.not_eq_true]
    exact fun blank => insider (mem_outsiders_of_isBlank blank)

/-- Whatever a character is lowered to is settled, be it in the table or not. -/
theorem settled_of_mem_lowerChar {c d : Char} (member : d ∈ Text.lowerChar c) : Settled d := by
  rcases lowerChar_cases c with dotted | ⟨run, among, holds, image⟩ | settled
  · rw [dotted] at member
    have both : Settled 'i' ∧ Settled '\u0307' := by decide +kernel
    rcases List.mem_pair.mp member with rfl | rfl
    · exact both.1
    · exact both.2
  · rw [image, List.mem_singleton] at member
    rw [member]
    exact (settled_of_holds among holds).1
  · rw [settled.lowerChar, List.mem_singleton] at member
    rwa [member]

theorem isBlank_of_mem_lowerChar {c d : Char} (solid : isBlank c = false) (member : d ∈ Text.lowerChar c) :
    isBlank d = false := by
  rcases lowerChar_cases c with dotted | ⟨run, among, holds, image⟩ | settled
  · rw [dotted] at member
    rcases List.mem_pair.mp member with rfl | rfl
    · rfl
    · rfl
  · rw [image, List.mem_singleton] at member
    rw [member]
    exact (settled_of_holds among holds).2
  · rw [settled.lowerChar, List.mem_singleton] at member
    rwa [member]

/-- What a character becomes between those before it and those after it. -/
def lowerAt (before : List Char) (c : Char) (after : List Char) : List Char :=
  if c = '\u03a3' then [lowerSigma before after] else Text.lowerChar c

theorem lowerFrom_cons (before : List Char) (c : Char) (rest : List Char) :
    lowerFrom before (c :: rest) = lowerAt before c rest ++ lowerFrom (c :: before) rest := rfl

section

variable {before after : List Char} {c d : Char}

theorem lowerSigma_eq (before after : List Char) :
    lowerSigma before after = '\u03c2' ∨ lowerSigma before after = '\u03c3' := by
  unfold lowerSigma
  split
  · exact Or.inl rfl
  · exact Or.inr rfl

theorem settled_of_mem_lowerAt (member : d ∈ lowerAt before c after) : Settled d := by
  unfold lowerAt at member
  split at member
  · have both : Settled '\u03c2' ∧ Settled '\u03c3' := by decide +kernel
    rw [List.mem_singleton.mp member]
    rcases lowerSigma_eq before after with same | same
    · exact same ▸ both.1
    · exact same ▸ both.2
  · exact settled_of_mem_lowerChar member

theorem isBlank_of_mem_lowerAt (solid : isBlank c = false) (member : d ∈ lowerAt before c after) :
    isBlank d = false := by
  unfold lowerAt at member
  split at member
  · rw [List.mem_singleton.mp member]
    rcases lowerSigma_eq before after with same | same
    · rw [same]; rfl
    · rw [same]; rfl
  · exact isBlank_of_mem_lowerChar solid member

theorem lowerAt_ne_nil (before : List Char) (c : Char) (after : List Char) : lowerAt before c after ≠ [] := by
  unfold lowerAt
  split
  · exact List.cons_ne_nil _ _
  · rcases lowerChar_cases c with same | ⟨_, _, _, same⟩ | settled
    · exact same ▸ List.cons_ne_nil _ _
    · exact same ▸ List.cons_ne_nil _ _
    · exact settled.lowerChar ▸ List.cons_ne_nil _ _

end

theorem settled_of_mem_lowerFrom {before cs : List Char} {d : Char} (member : d ∈ lowerFrom before cs) : Settled d := by
  induction cs generalizing before with
  | nil => cases member
  | cons c rest ih =>
    rw [lowerFrom_cons, List.mem_append] at member
    rcases member with here | later
    · exact settled_of_mem_lowerAt here
    · exact ih later

/-- Settled characters stay as they are, whatever stands around them. The capital sigma, which looks at its neighbours,
is none of them. -/
theorem lowerFrom_of_settled {before cs : List Char} (settled : ∀ c ∈ cs, Settled c) : lowerFrom before cs = cs := by
  induction cs generalizing before with
  | nil => rfl
  | cons c rest ih =>
    have here := settled c (List.mem_cons_self ..)
    rw [lowerFrom_cons, lowerAt, if_neg here.ne_sigma, here.lowerChar, List.singleton_append,
      ih fun d later => settled d (List.mem_cons_of_mem _ later)]

/-- Neither end is a blank. -/
structure Trimmed (cs : List Char) : Prop where
  head : ∀ c ∈ cs.head?, isBlank c = false
  last : ∀ c ∈ cs.getLast?, isBlank c = false

theorem trimmed_trimChars (cs : List Char) : Trimmed (trimChars cs) := by
  have cut : trimChars cs = (cs.dropWhile isBlank).rdropWhile isBlank := rfl
  rw [cut]
  constructor
  · intro c first
    obtain ⟨tail, whole⟩ := List.rdropWhile_prefix isBlank (cs.dropWhile isBlank)
    have solid := List.head?_dropWhile_not isBlank cs
    rw [← whole, List.head?_append, Option.mem_def.mp first] at solid
    exact solid
  · intro c final
    obtain ⟨nonempty, rfl⟩ := List.mem_getLast?_eq_getLast final
    exact Bool.not_eq_true _ ▸ List.rdropWhile_last_not isBlank _ nonempty

theorem Trimmed.trimChars {cs : List Char} (trimmed : Trimmed cs) : trimChars cs = cs := by
  have cut : Text.trimChars cs = (cs.dropWhile isBlank).rdropWhile isBlank := rfl
  have kept : cs.dropWhile isBlank = cs := by
    cases cs with
    | nil => rfl
    | cons c rest => exact List.dropWhile_cons_of_neg (by simp [trimmed.head c rfl])
  rw [cut, kept, List.rdropWhile_eq_self_iff]
  intro nonempty
  simp [trimmed.last _ (List.getLast?_eq_some_getLast nonempty)]

theorem last_lowerFrom {before cs : List Char} (solid : ∀ c ∈ cs.getLast?, isBlank c = false) :
    ∀ d ∈ (lowerFrom before cs).getLast?, isBlank d = false := by
  induction cs generalizing before with
  | nil => exact fun _ none => nomatch none
  | cons c rest ih =>
    intro d final
    rw [lowerFrom_cons, List.getLast?_append, Option.mem_def, Option.or_eq_some_iff] at final
    rcases final with later | ⟨none, here⟩
    · cases rest with
      | nil => cases later
      | cons next others =>
        rw [List.getLast?_cons_cons] at solid
        exact ih solid d later
    · cases rest with
      | nil => exact isBlank_of_mem_lowerAt (solid c rfl) (List.mem_of_getLast? here)
      | cons next others =>
        rw [List.getLast?_eq_none_iff, lowerFrom_cons] at none
        exact absurd (List.append_eq_nil_iff.mp none).1 (lowerAt_ne_nil _ _ _)

theorem Trimmed.lowerFrom {cs : List Char} (trimmed : Trimmed cs) (before : List Char) :
    Trimmed (lowerFrom before cs) := by
  refine ⟨?_, last_lowerFrom trimmed.last⟩
  cases cs with
  | nil => exact fun _ none => nomatch none
  | cons c rest =>
    intro d first
    obtain ⟨e, others, here⟩ := List.exists_cons_of_ne_nil (lowerAt_ne_nil before c rest)
    rw [lowerFrom_cons, here] at first
    cases first
    exact isBlank_of_mem_lowerAt (trimmed.head c rfl) (here ▸ List.mem_cons_self ..)

/-- A text that has been trimmed and lower-cased stays as it is when this is done again. -/
theorem lower_trim_idem (s : String) : lower (trim (lower (trim s))) = lower (trim s) := by
  have trimmed := (trimmed_trimChars s.toList).lowerFrom []
  have settled : ∀ c ∈ Text.lowerFrom [] (trimChars s.toList), Settled c := fun _ => settled_of_mem_lowerFrom
  simp only [lower, trim, String.toList_ofList, trimmed.trimChars, lowerFrom_of_settled settled]

end ComputedFields.Text
