import ComputedFields.Pipeline.Emit
import ComputedFields.Proofs.Admission
import ComputedFields.Proofs.NearestDouble

namespace ComputedFields

theorem Text.trimChars_of_solid {cs : List Char} (solid : ∀ c ∈ cs, Text.isBlank c = false) :
    Text.trimChars cs = cs := by
  have kept {ds : List Char} (inside : ∀ c ∈ ds, c ∈ cs) : ds.dropWhile Text.isBlank = ds := by
    cases ds with
    | nil => rfl
    | cons c rest => exact List.dropWhile_cons_of_neg (by simp [solid c (inside c (List.mem_cons_self ..))])
  rw [Text.trimChars, kept fun _ => id, kept fun _ => List.mem_reverse.mp, List.reverse_reverse]

theorem Text.isBlank_of_isDigit {c : Char} (digit : c.isDigit = true) : Text.isBlank c = false := by
  have range := Char.isDigit_iff_toNat.mp digit
  have low : '0'.toNat = 48 := rfl
  have high : '9'.toNat = 57 := rfl
  simp only [Text.isBlank, Bool.or_eq_false_iff, Bool.and_eq_false_iff, decide_eq_false_iff_not, beq_eq_false_iff_ne]
  omega

namespace Decimal

theorem Sign.solid {negative : Bool} {sign : List Char} (signs : Sign negative sign) :
    ∀ c ∈ sign, Text.isBlank c = false := by
  intro c member
  cases signs with
  | none => cases member
  | plus =>
    rw [List.mem_singleton.mp member]
    rfl
  | minus =>
    rw [List.mem_singleton.mp member]
    rfl

theorem ofDigits_toDigits (n : Nat) : ofDigits (Nat.toDigits 10 n) = n := Nat.ofDigitChars_ten_toDigits

theorem digits_toDigits (n : Nat) : Digits (Nat.toDigits 10 n) :=
  fun _ member => Nat.isDigit_of_mem_toDigits (by decide) (by decide) member

/-- How an integer is written: its digits, after a minus if it is negative. -/
theorem toList_toString (n : Int) :
    ∃ sign, Sign (n < 0) sign ∧ (toString n).toList = sign ++ Nat.toDigits 10 n.natAbs := by
  rw [Int.toString_eq_repr, Int.repr_eq_if]
  split
  · rename_i nonneg
    have positive : decide (n < 0) = false := by simpa using nonneg
    have same : n.toNat = n.natAbs := by omega
    rw [positive, same, Nat.repr_eq_ofList_toDigits, String.toList_ofList]
    exact ⟨[], .none, rfl⟩
  · rename_i neg
    have negative : decide (n < 0) = true := by simpa using neg
    have same : (-n).toNat = n.natAbs := by omega
    rw [negative, same, Nat.repr_eq_ofList_toDigits, String.toList_append]
    exact ⟨['-'], .minus, congrArg ('-' :: ·) String.toList_ofList⟩

/-- The digits of an integer are one of the ways to write it as a decimal. -/
theorem written_toString (n : Int) : Written ⟨n < 0, n.natAbs, 0⟩ (toString n).toList := by
  obtain ⟨sign, signs, text⟩ := toList_toString n
  have written := Written.intro signs (digits_toDigits n.natAbs) .none (Or.inl Nat.toDigits_ne_nil) .none
  rw [List.append_nil, ofDigits_toDigits, List.nil_append, List.append_nil] at written
  rw [text]
  exact written

theorem trimChars_toString (n : Int) : Text.trimChars (toString n).toList = (toString n).toList := by
  obtain ⟨sign, signs, text⟩ := toList_toString n
  apply Text.trimChars_of_solid
  rw [text]
  intro c member
  rcases List.mem_append.mp member with inSign | inDigits
  · exact signs.solid c inSign
  · exact Text.isBlank_of_isDigit (digits_toDigits n.natAbs c inDigits)

theorem toBinary64_whole (negative : Bool) (digits : Nat) :
    (⟨negative, digits, 0⟩ : Decimal).toBinary64 = .ofQuotient negative digits 1 := by
  by_cases zero : digits = 0
  · subst zero
    have none : Binary64.nearest 0 1 = 0 := by
      simp only [Binary64.nearest, Nat.zero_mul, Nat.zero_div]
      rfl
    simp only [toBinary64, decide_true, Bool.true_or, if_true, Binary64.ofQuotient, none]
    rfl
  · simp [toBinary64, zero]

end Decimal

namespace Number

variable {n : Int} (fits : -0x8000000000000000 ≤ n ∧ n < 0x10000000000000000)

theorem canonical?_ofInt_of_small (small : n.natAbs < 2 ^ 53) : canonical? (.ofInt n) = some (.int n fits) := by
  have finite : (Binary64.ofInt n).isFinite = true := isFinite_toDouble (.int n fits)
  have units := Binary64.units_ofInt_of_small fits small
  have whole : (Binary64.ofInt n).isWhole = true := by
    rw [Binary64.isWhole, units, Nat.mul_mod_left]
    rfl
  have sign : (Binary64.ofInt n).negative = decide (n < 0) := rfl
  have part : (Binary64.ofInt n).truncate = n := by
    rw [Binary64.truncate, units, Nat.mul_div_cancel _ Binary64.unity_pos, sign]
    simp only [decide_eq_true_eq]
    split <;> omega
  rw [canonical?, dif_pos finite, whole, part, if_pos (by simpa using small), ofInt?, dif_pos fits]

/-- From `2 ^ 53` on the literal is a float, also where this float is the integer itself. -/
theorem canonical?_ofInt_of_great (great : 2 ^ 53 ≤ n.natAbs) :
    canonical? (.ofInt n) = some (.float (.ofInt n) (isFinite_toDouble (.int n fits))) := by
  have finite : (Binary64.ofInt n).isFinite = true := isFinite_toDouble (.int n fits)
  have far : 2 ^ 53 ≤ (Binary64.ofInt n).units / Binary64.unity := by
    rw [Nat.le_div_iff_mul_le Binary64.unity_pos]
    exact Binary64.le_units_ofInt_of_great fits great
  have part : 2 ^ 53 ≤ (Binary64.ofInt n).truncate.natAbs := by
    rw [Binary64.truncate]
    split <;> omega
  rw [canonical?, dif_pos finite, if_neg]
  simp only [Bool.and_eq_true, decide_eq_true_eq, not_and]
  omega

/-- The detour through the double never changes the digits that are joined to a text. -/
theorem plainText_int : (Number.int n fits).plainText = toString n := by
  have double : (Number.int n fits).toDouble = .ofInt n := rfl
  rw [plainText, double]
  rcases Nat.lt_or_ge n.natAbs (2 ^ 53) with small | great
  · rw [canonical?_ofInt_of_small fits small]
  · rw [canonical?_ofInt_of_great fits great]
    rfl

end Number

/-- The double alone decides what a numeric constant becomes, and not whether it was entered as a number or as a
text. -/
theorem compileNumber_of_canonical {value : Json} {x : Binary64} {m : Number} (double : double? value = some x)
    (canonical : Number.canonical? x = some m) : compileNumber value = .ok (.literal (.number m)) := by
  unfold compileNumber
  split
  · cases double
  · rw [double, Option.bind_some, canonical]

theorem compileConstant_numeric {op : Operator} (numeric : op.family = .numeric) (value : Json) :
    compileConstant op value = compileNumber value := by
  rw [compileConstant, numeric]

section

variable {n : Int} (fits : -0x8000000000000000 ≤ n ∧ n < 0x10000000000000000)

theorem double?_int : double? (.num (.int n fits)) = some (.ofInt n) := rfl

/-- The digits of an integer are read as the double that the integer itself is rounded to. -/
theorem double?_toString : double? (.str (toString n)) = some (.ofInt n) := by
  have read := (Decimal.written_toString n).ofText?
  rw [double?, Decimal.trimChars_toString, read, Option.map_some, Decimal.toBinary64_whole]
  rfl

theorem compileNumber_int_of_small (small : n.natAbs < 2 ^ 53) :
    compileNumber (.num (.int n fits)) = .ok (.literal (.number (.int n fits))) :=
  compileNumber_of_canonical (double?_int fits) (Number.canonical?_ofInt_of_small fits small)

theorem compileNumber_int_of_great (great : 2 ^ 53 ≤ n.natAbs) :
    compileNumber (.num (.int n fits)) =
      .ok (.literal (.number (.float (.ofInt n) (Number.isFinite_toDouble (.int n fits))))) :=
  compileNumber_of_canonical (double?_int fits) (Number.canonical?_ofInt_of_great fits great)

end

/-- A constant that was entered as an integer. -/
def Operand.integer (n : Int) (fits : -0x8000000000000000 ≤ n ∧ n < 0x10000000000000000) : Operand :=
  .constant (.num (.int n fits))

theorem Operand.compile_constant {op : Operator} {value : Json} {e : Expr} (compiled : compileConstant op value = .ok e)
    (scope : Scope) (prior : List String) (table : Lookup.Table) :
    (Operand.constant value).compile scope op prior table = (.ok e, table) := by
  simp only [Operand.compile, Operand.constant, compiled, Except.mapError]

/-- Under an arithmetic operator an integer constant stays the integer that it is, as long as doubles count by ones.
From there on it is a float, the nearest one that there is. -/
theorem integer_constant_literal (op : Operator) (numeric : op.family = .numeric) (scope : Scope)
    (prior : List String) (table : Lookup.Table) (n : Int)
    (fits : -0x8000000000000000 ≤ n ∧ n < 0x10000000000000000) :
    (n.natAbs < 2 ^ 53 →
      (Operand.integer n fits).compile scope op prior table = (.ok (.literal (.number (.int n fits))), table) ∧
        (Expr.literal (.number (.int n fits))).emit.render = toString n) ∧
    (2 ^ 53 ≤ n.natAbs →
      ∃ x finite, (Operand.integer n fits).compile scope op prior table =
        (.ok (.literal (.number (.float x finite))), table) ∧ x.Rounds n) := by
  have number := compileConstant_numeric numeric
  constructor
  · intro small
    have compiled := (number _).trans (compileNumber_int_of_small fits small)
    exact ⟨Operand.compile_constant compiled scope prior table, rfl⟩
  · intro great
    have compiled := (number _).trans (compileNumber_int_of_great fits great)
    exact ⟨_, _, Operand.compile_constant compiled scope prior table, Binary64.rounds_ofInt fits⟩

/-- The greatest integer below `2 ^ 53` is kept with all of its digits. The least one that fits into 64 bits becomes a
float. -/
theorem greatest_safe_integer_literal :
    (Operand.integer 9007199254740991 (by decide)).compile ⟨⟨[]⟩, ""⟩ .add [] .empty =
        (.ok (.literal (.number (.int 9007199254740991 (by decide)))), .empty) ∧
      (Expr.literal (.number (.int 9007199254740991 (by decide)))).emit.render = "9007199254740991" ∧
      ∃ x finite, (Operand.integer (-9223372036854775808) (by decide)).compile ⟨⟨[]⟩, ""⟩ .sqrt [] .empty =
        (.ok (.literal (.number (.float x finite))), .empty) ∧ x.Rounds (-9223372036854775808) := by
  have safe := integer_constant_literal .add rfl ⟨⟨[]⟩, ""⟩ [] .empty 9007199254740991 (by decide)
  have least := integer_constant_literal .sqrt rfl ⟨⟨[]⟩, ""⟩ [] .empty (-9223372036854775808) (by decide)
  obtain ⟨compiled, printed⟩ := safe.1 (by decide)
  exact ⟨compiled, printed, least.2 (by decide)⟩

/-- Between two doubles the even one is taken. It is neither written as an integer nor equal to the one entered. -/
theorem odd_integer_rounded :
    ∃ finite, (Operand.integer 9007199254740993 (by decide)).compile ⟨⟨[]⟩, ""⟩ .add [] .empty =
        (.ok (.literal (.number (.float ⟨false, 0x4340000000000000⟩ finite))), .empty) ∧
      (Expr.literal (.number (.float ⟨false, 0x4340000000000000⟩ finite))).emit.render = "9007199254740992.0" ∧
        "9007199254740992.0" ≠ toString (9007199254740993 : Int) := by
  have double : Number.canonical? (.ofInt 9007199254740993) =
      some (.float ⟨false, 0x4340000000000000⟩ (by decide)) := by decide +kernel
  have compiled := compileNumber_of_canonical (double?_int (by decide)) double
  rw [← compileConstant_numeric (rfl : Operator.add.family = .numeric)] at compiled
  exact ⟨by decide, Operand.compile_constant compiled _ _ _, by decide +kernel, by decide +kernel⟩

/-- It makes no difference whether an integer is entered as a number or as a text. Joined to a text, it keeps all of its
digits, even those that no double can hold. -/
theorem integer_as_number_or_text (op : Operator) (family : op.family = .numeric ∨ op.family = .concat) (scope : Scope)
    (prior : List String) (table : Lookup.Table) (n : Int)
    (fits : -0x8000000000000000 ≤ n ∧ n < 0x10000000000000000) :
    ∃ e, (Operand.integer n fits).compile scope op prior table = (.ok e, table) ∧
      (Operand.constant (.str (toString n))).compile scope op prior table = (.ok e, table) ∧
        (op.family = .concat → e = .literal (.text (toString n))) := by
  rcases family with numeric | concat
  · have number := compileConstant_numeric numeric
    have finite := Number.isFinite_toDouble (.int n fits)
    obtain ⟨m, canonical⟩ := Option.isSome_iff_exists.mp ((Number.canonical?_isSome_iff _).mpr finite)
    have entered := (number _).trans (compileNumber_of_canonical (double?_int fits) canonical)
    have typed := (number _).trans (compileNumber_of_canonical double?_toString canonical)
    refine ⟨_, Operand.compile_constant entered scope prior table, Operand.compile_constant typed scope prior table, ?_⟩
    rw [numeric]
    exact fun other => nomatch other
  · have entered : compileConstant op (.num (.int n fits)) = .ok (.literal (.text (toString n))) := by
      rw [compileConstant, concat, ← Number.plainText_int fits]
      rfl
    have typed : compileConstant op (.str (toString n)) = .ok (.literal (.text (toString n))) := by
      rw [compileConstant, concat]
      rfl
    exact ⟨_, Operand.compile_constant entered scope prior table, Operand.compile_constant typed scope prior table,
      fun _ => rfl⟩

/-- The greatest integer that fits is taken for the same number in either form. To be concatenated, an integer keeps the
digits that a double would lose. -/
theorem long_integers_as_number_or_text :
    (∃ e, (Operand.integer 18446744073709551615 (by decide)).compile ⟨⟨[]⟩, ""⟩ .multiply [] .empty = (.ok e, .empty) ∧
      (Operand.constant (.str "18446744073709551615")).compile ⟨⟨[]⟩, ""⟩ .multiply [] .empty = (.ok e, .empty)) ∧
      (Operand.integer (-9007199254740993) (by decide)).compile ⟨⟨[]⟩, ""⟩ .concat [] .empty =
        (.ok (.literal (.text "-9007199254740993")), .empty) := by
  have digits : toString (18446744073709551615 : Int) = "18446744073709551615" := by decide +kernel
  have digits' : toString (-9007199254740993 : Int) = "-9007199254740993" := by decide +kernel
  obtain ⟨e, entered, typed, _⟩ := integer_as_number_or_text .multiply (Or.inl rfl) ⟨⟨[]⟩, ""⟩ [] .empty
    18446744073709551615 (by decide)
  obtain ⟨_, joined, _, exactly⟩ := integer_as_number_or_text .concat (Or.inr rfl) ⟨⟨[]⟩, ""⟩ [] .empty
    (-9007199254740993) (by decide)
  rw [digits] at typed
  rw [exactly rfl, digits'] at joined
  exact ⟨⟨e, entered, typed⟩, joined⟩

end ComputedFields
