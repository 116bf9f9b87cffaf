import ComputedFields.Compile.Steps
import ComputedFields.Proofs.FiniteDouble
import ComputedFields.Proofs.WrittenDecimal

namespace ComputedFields

/-- What the name of a result has to be: letters, digits and underscores, and not the beginning of a lookup's name. -/
structure AllowedName (name : String) : Prop where
  nonempty : name ≠ ""
  plain : ∀ c ∈ name.toList, 'A' ≤ c ∧ c ≤ 'Z' ∨ 'a' ≤ c ∧ c ≤ 'z' ∨ '0' ≤ c ∧ c ≤ '9' ∨ c = '_'
  unreserved : ¬ Lookup.reserved.toList <+: name.toList

theorem isNameChar_iff {c : Char} :
    isNameChar c = true ↔ 'A' ≤ c ∧ c ≤ 'Z' ∨ 'a' ≤ c ∧ c ≤ 'z' ∨ '0' ≤ c ∧ c ≤ '9' ∨ c = '_' := by
  have ranges : isNameChar c =
      (decide ('A' ≤ c ∧ c ≤ 'Z') || ('a' ≤ c && c ≤ 'z') || ('0' ≤ c && c ≤ '9') || c == '_') := rfl
  simp only [ranges, Bool.or_eq_true, Bool.and_eq_true, decide_eq_true_eq, beq_iff_eq, or_assoc]

/-- The checks of a name, made one after the other, come to one condition on its characters and on how it begins. -/
theorem checkName_ok_iff {name : String} : checkName name = .ok () ↔ AllowedName name := by
  constructor
  · intro passed
    unfold checkName at passed
    split at passed
    · cases passed
    · rename_i nonempty
      split at passed
      · cases passed
      · rename_i plain
        split at passed
        · cases passed
        · rename_i unreserved
          simp only [Bool.not_eq_true', Bool.not_eq_false, List.all_eq_true] at plain
          exact {
            nonempty := fun empty => nonempty (String.isEmpty_iff.mpr empty)
            plain := fun c member => isNameChar_iff.mp (plain c member)
            unreserved := fun start => unreserved (List.isPrefixOf_iff_prefix.mpr start) }
  · intro allowed
    have plain : name.toList.all isNameChar = true :=
      List.all_eq_true.mpr fun c member => isNameChar_iff.mpr (allowed.plain c member)
    rw [checkName, if_neg fun empty => allowed.nonempty (String.isEmpty_iff.mp empty), plain,
      if_neg (by decide), if_neg fun start => allowed.unreserved (List.isPrefixOf_iff_prefix.mp start)]

/-- An operator's name stands in a text, with or without the dollar sign and with any blanks around it. -/
def Operator.Spelled (op : Operator) (text : String) : Prop := Text.trim text = op.id ∨ Text.trim text = op.name

theorem Operator.dropDollar_name (op : Operator) : Operator.dropDollar op.name.toList = op.name.toList := by
  cases op <;> rfl

theorem Operator.find?_name (op : Operator) : Operator.all.find? (·.name == op.name) = some op := by
  cases op <;> rfl

/-- Dropping at most one dollar sign lets exactly two spellings through, the one with the sign and the one without. -/
theorem Operator.name_eq_dropDollar_iff {op : Operator} {cs : List Char} :
    op.name = String.ofList (Operator.dropDollar cs) ↔ String.ofList cs = op.id ∨ String.ofList cs = op.name := by
  have dollar : "$".toList = ['$'] := rfl
  simp only [← String.toList_inj, String.toList_ofList, Operator.id, String.toList_append, dollar,
    List.singleton_append]
  constructor
  · intro same
    unfold Operator.dropDollar at same
    split at same
    · exact Or.inl (congrArg _ same.symm)
    · exact Or.inr same.symm
  · rintro (rfl | rfl)
    · rfl
    · exact op.dropDollar_name.symm

/-- An operator is read from its spellings and from nothing else. The search takes the first operator of a name, but no
two have the same. -/
theorem Operator.ofText_ok_iff {text : String} {op : Operator} : Operator.ofText text = .ok op ↔ op.Spelled text := by
  rw [Operator.Spelled, Text.trim, ← Operator.name_eq_dropDollar_iff]
  simp only [Operator.ofText]
  constructor
  · intro read
    split at read
    · rename_i found
      cases read
      simpa only [beq_iff_eq] using List.find?_some found
    · cases read
  · intro same
    simp only [← same, op.find?_name]

theorem Operator.Spelled.unique {op other : Operator} {text : String} (spelled : op.Spelled text)
    (spelled' : other.Spelled text) : op = other := by
  rw [← Operator.ofText_ok_iff] at spelled spelled'
  exact Except.ok.inj (spelled.symm.trans spelled')

theorem Text.trimChars_of_allBlank {s : String} (blank : Text.allBlank s = true) : Text.trimChars s.toList = [] := by
  have none : s.toList.dropWhile Text.isBlank = [] :=
    List.dropWhile_eq_nil_iff.mpr (List.all_eq_true.mp blank)
  rw [Text.trimChars, none]
  rfl

theorem Operator.Spelled.not_blank {op : Operator} {text : String} (spelled : op.Spelled text) :
    Text.allBlank text = false := by
  cases blank : Text.allBlank text with
  | false => rfl
  | true =>
    rw [Operator.Spelled, Text.trim, Text.trimChars_of_allBlank blank] at spelled
    rcases spelled with same | same
    · exact absurd same (by cases op <;> decide)
    · exact absurd same (by cases op <;> decide)

theorem mapError_eq_ok_iff {ε δ α : Type} {result : Except ε α} {f : ε → δ} {a : α} :
    result.mapError f = .ok a ↔ result = .ok a := by
  cases result with
  | error => simp only [Except.mapError, reduceCtorEq]
  | ok => simp only [Except.mapError, Except.ok.injEq]

/-- The test for a blank text in front changes only the error, because no spelling is blank. -/
theorem readOperator_ok_iff {text : String} {op : Operator} : readOperator text = .ok op ↔ op.Spelled text := by
  rw [readOperator]
  constructor
  · intro read
    split at read
    · cases read
    · exact Operator.ofText_ok_iff.mp (mapError_eq_ok_iff.mp read)
  · intro spelled
    rw [spelled.not_blank, if_neg (by decide)]
    exact mapError_eq_ok_iff.mpr (Operator.ofText_ok_iff.mpr spelled)

/-- The constants that the operators of a family take. -/
def Family.Admits : Family → Json → Prop
  | .numeric, .num _ => True
  | .numeric, .str s => ∃ d : Decimal, d.Written (Text.trimChars s.toList) ∧ d.Finite
  | .date, .num _ => True
  | .date, .str s => Text.allBlank s = false
  | .concat, .str _ => True
  | .concat, .num _ => True
  | .concat, .bool _ => True
  | _, _ => False

theorem compileNumber_ok_iff_double {value : Json} (nonnull : value ≠ .null) :
    (∃ e, compileNumber value = .ok e) ↔ ∃ x, double? value = some x ∧ x.isFinite = true := by
  unfold compileNumber
  split
  · exact absurd rfl nonnull
  · split
    · rename_i n number
      obtain ⟨x, double, canonical⟩ := Option.bind_eq_some_iff.mp number
      have finite := (Number.canonical?_isSome_iff x).mp (Option.isSome_iff_exists.mpr ⟨n, canonical⟩)
      exact iff_of_true ⟨_, rfl⟩ ⟨x, double, finite⟩
    · rename_i none
      refine iff_of_false (by rintro ⟨_, _⟩; contradiction) ?_
      rintro ⟨x, double, finite⟩
      obtain ⟨n, canonical⟩ := Option.isSome_iff_exists.mp ((Number.canonical?_isSome_iff x).mpr finite)
      rw [double, Option.bind_some, canonical] at none
      cases none

/-- A numeric constant is accepted for its value and not for its form: a number, or a text that is a finite decimal once
it is trimmed. -/
theorem compileNumber_ok_iff {value : Json} : (∃ e, compileNumber value = .ok e) ↔ Family.numeric.Admits value := by
  cases value with
  | null => simp [compileNumber, Family.Admits]
  | num n =>
    rw [compileNumber_ok_iff_double (by simp)]
    exact iff_of_true ⟨_, rfl, n.isFinite_toDouble⟩ trivial
  | str s =>
    rw [compileNumber_ok_iff_double (by simp)]
    simp only [double?, Option.map_eq_some_iff, Family.Admits, Decimal.ofText?_eq_some_iff]
    constructor
    · rintro ⟨_, ⟨d, written, rfl⟩, finite⟩
      exact ⟨d, written, d.isFinite_toBinary64_iff.mp finite⟩
    · rintro ⟨d, written, finite⟩
      exact ⟨_, ⟨d, written, rfl⟩, d.isFinite_toBinary64_iff.mpr finite⟩
  | _ =>
    rw [compileNumber_ok_iff_double (by simp)]
    simp [double?, Family.Admits]

theorem compileDate_ok_iff {value : Json} : (∃ e, compileDate value = .ok e) ↔ Family.date.Admits value := by
  cases value with
  | str s => cases blank : Text.allBlank s <;> simp [compileDate, Family.Admits, blank]
  | _ => simp [compileDate, Family.Admits]

theorem compileText_ok_iff {value : Json} : (∃ e, compileText value = .ok e) ↔ Family.concat.Admits value := by
  cases value <;> simp [compileText, Family.Admits]

theorem compileConstant_ok_iff {op : Operator} {value : Json} :
    (∃ e, compileConstant op value = .ok e) ↔ op.family.Admits value := by
  unfold compileConstant
  cases op.family with
  | numeric => exact compileNumber_ok_iff
  | concat => exact compileText_ok_iff
  | date => exact compileDate_ok_iff

end ComputedFields
