import ComputedFields.Number.Decimal
import Mathlib.Data.List.TakeWhile

namespace ComputedFields.Decimal

/-- A sign as it stands in front of digits, and whether it is a minus. -/
inductive Sign : Bool → List Char → Prop
  | none : Sign false []
  | plus : Sign false ['+']
  | minus : Sign true ['-']

def Digits (cs : List Char) : Prop := ∀ c ∈ cs, c.isDigit = true

/-- The digits after the point, and how they are written. The point may be missing with them. -/
inductive Fraction : List Char → List Char → Prop
  | none : Fraction [] []
  | some {digits} : Digits digits → Fraction digits ('.' :: digits)

/-- The value of an exponent, and how it is written. -/
inductive Exponent : Int → List Char → Prop
  | none : Exponent 0 []
  | some {mark negative sign digits} : mark = 'e' ∨ mark = 'E' → Sign negative sign → Digits digits → digits ≠ [] →
      Exponent (if negative then -(ofDigits digits : Int) else ofDigits digits) (mark :: (sign ++ digits))

/-- A decimal and a text of it: a sign, digits with a point among them, and an exponent. Only the digits have to be
there, on one side of the point or on both. -/
inductive Written : Decimal → List Char → Prop
  | intro {negative sign whole fraction point exponent tail} : Sign negative sign → Digits whole →
      Fraction fraction point → whole ≠ [] ∨ fraction ≠ [] → Exponent exponent tail →
      Written ⟨negative, ofDigits (whole ++ fraction), exponent - fraction.length⟩ (sign ++ (whole ++ (point ++ tail)))

theorem signed_split {cs body : List Char} {negative : Bool} (read : signed cs = (negative, body)) :
    ∃ sign, Sign negative sign ∧ cs = sign ++ body := by
  unfold signed at read
  split at read
  · cases read
    exact ⟨['-'], .minus, rfl⟩
  · cases read
    exact ⟨['+'], .plus, rfl⟩
  · cases read
    exact ⟨[], .none, rfl⟩

/-- No text of digits, with or without a point in front, begins with a sign. -/
theorem signed_append {negative : Bool} {sign body : List Char} (written : Sign negative sign)
    (unsigned : ∀ c rest, body = c :: rest → c ≠ '-' ∧ c ≠ '+') : signed (sign ++ body) = (negative, body) := by
  cases written with
  | none =>
    rw [List.nil_append]
    unfold signed
    split
    · exact absurd rfl (unsigned _ _ rfl).1
    · exact absurd rfl (unsigned _ _ rfl).2
    · rfl
  | plus => rfl
  | minus => rfl

theorem unsigned_of_isDigit {c : Char} (digit : c.isDigit = true) : c ≠ '-' ∧ c ≠ '+' := by
  constructor
  · rintro rfl
    exact absurd digit (by decide)
  · rintro rfl
    exact absurd digit (by decide)

theorem takeWhile_digits {digits rest : List Char} (all : Digits digits)
    (stop : ∀ c more, rest = c :: more → c.isDigit = false) :
    (digits ++ rest).takeWhile Char.isDigit = digits ∧ (digits ++ rest).dropWhile Char.isDigit = rest := by
  rw [List.takeWhile_append_of_pos all, List.dropWhile_append_of_pos all]
  cases rest with
  | nil => exact ⟨List.append_nil _, rfl⟩
  | cons c more =>
    have other := stop c more rfl
    rw [List.takeWhile_cons_of_neg (by simp [other]), List.dropWhile_cons_of_neg (by simp [other]), List.append_nil]
    exact ⟨rfl, rfl⟩

theorem digits_takeWhile (cs : List Char) : Digits (cs.takeWhile Char.isDigit) :=
  fun _ member => List.mem_takeWhile_imp member

/-- An exponent is read exactly where one is written. Digits have to follow its mark and its sign. -/
theorem exponent?_eq_some_iff {tail : List Char} {e : Int} : exponent? tail = some e ↔ Exponent e tail := by
  constructor
  · intro read
    cases tail with
    | nil =>
      cases read
      exact .none
    | cons mark rest =>
      cases signs : signed rest with
      | mk negative digits =>
        obtain ⟨sign, written, rfl⟩ := signed_split signs
        simp only [exponent?, signs] at read
        split at read
        · rename_i good
          simp only [Bool.and_eq_true, Bool.or_eq_true, decide_eq_true_eq, Bool.not_eq_true',
            List.isEmpty_eq_false_iff, List.all_eq_true] at good
          cases read
          exact .some good.1.1 written good.2 good.1.2
        · cases read
  · intro written
    cases written with
    | none => rfl
    | @some mark negative sign digits marked signs all nonempty =>
      have clear : ∀ c rest, digits = c :: rest → c ≠ '-' ∧ c ≠ '+' := by
        rintro c rest rfl
        exact unsigned_of_isDigit (all c (List.mem_cons_self ..))
      simp only [exponent?, signed_append signs clear]
      rw [if_pos]
      simp only [Bool.and_eq_true, Bool.or_eq_true, decide_eq_true_eq, Bool.not_eq_true', List.isEmpty_eq_false_iff,
        List.all_eq_true]
      exact ⟨⟨marked, nonempty⟩, all⟩

/-- The decimal of a numeral in its parts: the digits on the two sides of the point, and what follows them. -/
def ofParts? (negative : Bool) (whole fraction tail : List Char) : Option Decimal :=
  if whole.isEmpty && fraction.isEmpty then none
  else (exponent? tail).map fun e => ⟨negative, ofDigits (whole ++ fraction), e - fraction.length⟩

theorem ofParts?_eq_some_iff {negative : Bool} {whole fraction tail : List Char} {d : Decimal} :
    ofParts? negative whole fraction tail = some d ↔
      (whole ≠ [] ∨ fraction ≠ []) ∧ ∃ e, Exponent e tail ∧
        d = ⟨negative, ofDigits (whole ++ fraction), e - fraction.length⟩ := by
  unfold ofParts?
  by_cases missing : whole = [] ∧ fraction = []
  · simp [missing]
  · have present : whole ≠ [] ∨ fraction ≠ [] := not_and_or.mp missing
    rw [if_neg (by simpa only [Bool.and_eq_true, List.isEmpty_iff] using missing)]
    simp only [present, true_and, Option.map_eq_some_iff, exponent?_eq_some_iff, @eq_comm _ d]

theorem ofText?_pointed {cs body rest : List Char} {negative : Bool} (signs : signed cs = (negative, body))
    (point : body.dropWhile Char.isDigit = '.' :: rest) :
    ofText? cs = ofParts? negative (body.takeWhile Char.isDigit) (rest.takeWhile Char.isDigit)
      (rest.dropWhile Char.isDigit) := by
  simp only [ofText?, signs, point, ofParts?]

theorem ofText?_pointless {cs body : List Char} {negative : Bool} (signs : signed cs = (negative, body))
    (pointless : ∀ rest, body.dropWhile Char.isDigit ≠ '.' :: rest) :
    ofText? cs = ofParts? negative (body.takeWhile Char.isDigit) [] (body.dropWhile Char.isDigit) := by
  -- The second branch of the match is taken by `pointless`, which `simp` finds in the context.
  simp only [ofText?, signs, ofParts?]

/-- What is read as a decimal is written as one. The point decides how the rest is divided. -/
theorem written_of_ofText? {cs : List Char} {d : Decimal} (read : ofText? cs = some d) : Written d cs := by
  cases signs : signed cs with
  | mk negative body =>
    obtain ⟨sign, written, same⟩ := signed_split signs
    have cut : body = body.takeWhile Char.isDigit ++ body.dropWhile Char.isDigit :=
      List.takeWhile_append_dropWhile.symm
    by_cases pointed : ∃ rest, body.dropWhile Char.isDigit = '.' :: rest
    · obtain ⟨rest, point⟩ := pointed
      rw [ofText?_pointed signs point, ofParts?_eq_some_iff] at read
      obtain ⟨present, e, atTail, rfl⟩ := read
      have text := Written.intro written (digits_takeWhile body) (.some (digits_takeWhile rest)) present atTail
      rwa [List.cons_append, List.takeWhile_append_dropWhile, ← point, ← cut, ← same] at text
    · rw [ofText?_pointless signs (not_exists.mp pointed), ofParts?_eq_some_iff] at read
      obtain ⟨present, e, atTail, rfl⟩ := read
      have text := Written.intro written (digits_takeWhile body) .none present atTail
      rwa [List.nil_append, ← cut, ← same] at text

/-- An exponent does not begin with a digit, so the digits in front of it end there. -/
theorem Exponent.head_not_digit {e : Int} {tail : List Char} (written : Exponent e tail) :
    ∀ c more, tail = c :: more → c.isDigit = false := by
  rintro c more rfl
  cases written with
  | some marked =>
    rcases marked with rfl | rfl
    · decide
    · decide

theorem Exponent.head_not_point {e : Int} {tail : List Char} (written : Exponent e tail) :
    ∀ rest, tail ≠ '.' :: rest := by
  rintro rest rfl
  cases written with
  | some marked => exact absurd marked (by decide)

/-- Every text of a decimal is read as that decimal. -/
theorem Written.ofText? {cs : List Char} {d : Decimal} (written : Written d cs) : ofText? cs = some d := by
  cases written with
  | @intro negative sign whole fraction point exponent tail signs atWhole fractional present atTail =>
    have clear : ∀ c rest, whole ++ (point ++ tail) = c :: rest → c ≠ '-' ∧ c ≠ '+' := by
      intro c rest same
      cases whole with
      | cons first others =>
        cases same
        exact unsigned_of_isDigit (atWhole c (List.mem_cons_self ..))
      | nil =>
        cases fractional with
        | none => exact absurd present (by simp)
        | some => cases same; decide
    have read := signed_append signs clear
    cases fractional with
    | none =>
      obtain ⟨taken, dropped⟩ := takeWhile_digits atWhole atTail.head_not_digit
      rw [List.nil_append] at read ⊢
      rw [ofText?_pointless read (by rw [dropped]; exact atTail.head_not_point), taken, dropped, ofParts?_eq_some_iff]
      exact ⟨present, exponent, atTail, rfl⟩
    | some atFraction =>
      have stop : ∀ c more, '.' :: (fraction ++ tail) = c :: more → c.isDigit = false := by
        intro c more same
        cases same
        decide
      obtain ⟨taken, dropped⟩ := takeWhile_digits atWhole stop
      obtain ⟨taken', dropped'⟩ := takeWhile_digits atFraction atTail.head_not_digit
      rw [List.cons_append] at read ⊢
      rw [ofText?_pointed read dropped, taken, taken', dropped', ofParts?_eq_some_iff]
      exact ⟨present, exponent, atTail, rfl⟩

theorem ofText?_eq_some_iff {cs : List Char} {d : Decimal} : ofText? cs = some d ↔ Written d cs :=
  ⟨written_of_ofText?, Written.ofText?⟩

end ComputedFields.Decimal
