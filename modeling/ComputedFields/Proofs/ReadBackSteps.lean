import ComputedFields.Proofs.DraftedValue

namespace ComputedFields

/-- The values that a format keeps: it finds no other ones, and a value that it kept is found again. -/
structure Format.Keeps {ε ν : Type} (F : Format (Except ε) ν) (node : Json → ν) (kept : Json → Prop) : Prop where
  null : kept .null
  text : ∀ s, kept (.str s)
  found : ∀ {n value}, F.value n = .ok value → kept value
  back : ∀ {value}, kept value → F.value (node value) = .ok value

theorem Json.keeps_format : Json.format.Keeps id fun _ => True where
  null := trivial
  text _ := trivial
  found _ := trivial
  back _ := rfl

/-- A text has to be read with each key once, since a key that comes again is not kept apart. -/
theorem Json.Draft.keeps_format : Json.Draft.format.Keeps Json.draft Json.Distinct where
  null := trivial
  text _ := trivial
  found run := Json.distinct_of_read (mapError_eq_ok_iff.mp run)
  back distinct := mapError_eq_ok_iff.mpr (Json.read_draft distinct)

/-- What a step holds can be kept. -/
def Step.Kept (kept : Json → Prop) (step : Step) : Prop :=
  kept step.operand1.value ∧ ∀ operand ∈ step.operand2, kept operand.value

section

variable {ε ν : Type} {F : Format (Except ε) ν} {node : Json → ν} {kept : Json → Prop}

theorem OperandKind.read_name (faithful : F.Faithful node) (kind : OperandKind) :
    OperandKind.read F (node (.str kind.name)) = .ok kind := by
  have known : kind.name ∈ all.map name := by cases kind <;> decide
  rw [OperandKind.read, faithful.choice _ _ known, ok_bind]
  cases kind <;> rfl

theorem Operand.read_toJson (faithful : F.Faithful node) {operand : Operand}
    (back : F.value (node operand.value) = .ok operand.value) : Operand.read F (node operand.toJson) = .ok operand := by
  simp [Operand.read, Operand.toJson, faithful.gather, Format.fillMember, Operand.slots, Format.need,
    OperandKind.read_name faithful, back, ok_bind, pure_eq_ok]

theorem Step.readId_text (keeps : F.Keeps node kept) (s : String) : Step.readId F (node (.str s)) = .ok s := by
  rw [Step.readId, keeps.back (keeps.text s)]
  rfl

/-- A step is read back if its values are. All else in it is a text or a known name and needs no condition. -/
theorem Step.read_toJson (faithful : F.Faithful node) (keeps : F.Keeps node kept) {step : Step}
    (whole : step.Kept kept) : Step.read F (node step.toJson) = .ok step := by
  obtain ⟨id, output, operand1, operator, operand2⟩ := step
  have first := Operand.read_toJson faithful (keeps.back whole.1)
  cases operand2 with
  | none =>
    simp [Step.read, Step.toJson, faithful.gather, Format.fillMember, Step.slots, Format.need, faithful.text,
      Step.readId_text keeps, first, ok_bind, pure_eq_ok]
  | some operand =>
    have second : F.optional (Operand.read F) (node operand.toJson) = .ok (some operand) := by
      have present : operand.toJson ≠ .null := nofun
      rw [faithful.optional _ _ present, Operand.read_toJson faithful (keeps.back (whole.2 operand rfl))]
      rfl
    simp [Step.read, Step.toJson, faithful.gather, Format.fillMember, Step.slots, Format.need, faithful.text,
      Step.readId_text keeps, first, second, ok_bind, pure_eq_ok]

theorem Step.readAll_toJson (faithful : F.Faithful node) (keeps : F.Keeps node kept) {steps : List Step}
    (whole : ∀ step ∈ steps, step.Kept kept) : Step.readAll F (node (.arr (steps.map Step.toJson))) = .ok steps :=
  faithful.list_map fun step member => Step.read_toJson faithful keeps (whole step member)

theorem Operand.kept_of_fill (keeps : F.Keeps node kept) {slot : Slot (Except ε) ν Operand.Parts}
    (member : slot ∈ Operand.slots F) {n : ν} {parts parts' : Operand.Parts}
    (before : ∀ value ∈ parts.value, kept value) (run : slot.fill n parts = .ok parts') :
    ∀ value ∈ parts'.value, kept value := by
  simp only [Operand.slots, List.mem_cons, List.not_mem_nil, or_false] at member
  rcases member with rfl | rfl
  · obtain ⟨_, _, same⟩ := bind_eq_ok_iff.mp run
    cases same
    exact before
  · obtain ⟨value, here, same⟩ := bind_eq_ok_iff.mp run
    cases same
    rintro _ ⟨⟩
    exact keeps.found here

theorem Operand.kept_of_read (sound : F.Sound) (keeps : F.Keeps node kept) {n : ν} {operand : Operand}
    (run : Operand.read F n = .ok operand) : kept operand.value := by
  obtain ⟨parts, gathered, rest⟩ := bind_eq_ok_iff.mp run
  obtain ⟨kind, _, rest⟩ := bind_eq_ok_iff.mp rest
  cases rest
  have start : ∀ value ∈ ({} : Operand.Parts).value, kept value := nofun
  have held := sound.gather (P := fun parts => ∀ value ∈ parts.value, kept value)
    (fun _ member _ _ _ => Operand.kept_of_fill keeps member) start gathered
  show kept (parts.value.getD .null)
  cases present : parts.value with
  | none => exact keeps.null
  | some value => exact held value present

/-- What is known of the operands that a step has so far. -/
def Step.Parts.Kept (kept : Json → Prop) (parts : Step.Parts) : Prop :=
  (∀ operand ∈ parts.operand1, kept operand.value) ∧ ∀ given ∈ parts.operand2, ∀ operand ∈ given, kept operand.value

theorem Step.kept_of_fill (sound : F.Sound) (keeps : F.Keeps node kept) {slot : Slot (Except ε) ν Step.Parts}
    (member : slot ∈ Step.slots F) {n : ν} {parts parts' : Step.Parts} (before : parts.Kept kept)
    (run : slot.fill n parts = .ok parts') : parts'.Kept kept := by
  simp only [Step.slots, List.mem_cons, List.not_mem_nil, or_false] at member
  rcases member with rfl | rfl | rfl | rfl | rfl
  case inr.inr.inl =>
    obtain ⟨operand, here, same⟩ := bind_eq_ok_iff.mp run
    cases same
    refine ⟨?_, before.2⟩
    rintro _ ⟨⟩
    exact Operand.kept_of_read sound keeps here
  case inr.inr.inr.inr =>
    obtain ⟨given, here, same⟩ := bind_eq_ok_iff.mp run
    cases same
    refine ⟨before.1, ?_⟩
    rintro _ ⟨⟩ operand present
    cases present
    exact Operand.kept_of_read sound keeps (sound.optional here)
  all_goals
    obtain ⟨_, _, same⟩ := bind_eq_ok_iff.mp run
    cases same
    exact before

theorem Step.kept_of_read (sound : F.Sound) (keeps : F.Keeps node kept) {n : ν} {step : Step}
    (run : Step.read F n = .ok step) : step.Kept kept := by
  obtain ⟨parts, gathered, rest⟩ := bind_eq_ok_iff.mp run
  obtain ⟨operand1, needed, rest⟩ := bind_eq_ok_iff.mp rest
  cases rest
  have start : ({} : Step.Parts).Kept kept := ⟨nofun, nofun⟩
  have held := sound.gather (P := Step.Parts.Kept kept)
    (fun _ member _ _ _ => Step.kept_of_fill sound keeps member) start gathered
  refine ⟨held.1 operand1 (sound.need needed), ?_⟩
  cases present : parts.operand2 with
  | none => exact nofun
  | some given => exact held.2 given present

/-- What was read holds no values but those that can be kept, so it may be written and read again. -/
theorem Step.kept_of_readAll (sound : F.Sound) (keeps : F.Keeps node kept) {n : ν} {steps : List Step}
    (run : Step.readAll F n = .ok steps) : ∀ step ∈ steps, step.Kept kept := by
  intro step member
  obtain ⟨item, here⟩ := sound.list run step member
  exact Step.kept_of_read sound keeps here

end

/-- From JSON values all lists of steps come back, whatever their operands hold. -/
theorem Step.ofJson_toJson (steps : List Step) : Step.ofJson (.arr (steps.map Step.toJson)) = .ok steps :=
  Step.readAll_toJson Json.faithful_format Json.keeps_format fun _ _ => ⟨trivial, fun _ _ => trivial⟩

theorem Step.read_of_ofText {text : String} {steps : List Step} (run : Step.ofText text = .ok steps) :
    Step.readAll Json.Draft.format (Json.Draft.ofText text).1 = .ok steps := by
  obtain ⟨_, here, rest⟩ := bind_eq_ok_iff.mp run
  obtain ⟨_, _, same⟩ := bind_eq_ok_iff.mp rest
  cases same
  exact here

/-- Steps are read back from what they are written as, whatever they hold, so that reading, writing and reading again
is reading once. Steps that come from a text are also read back by who reads texts. -/
theorem steps_read_back :
    (∀ steps : List Step, Step.ofJson (.arr (steps.map Step.toJson)) = .ok steps) ∧
    (∀ value, (Step.ofJson value >>= fun steps => Step.ofJson (.arr (steps.map Step.toJson))) = Step.ofJson value) ∧
    ∀ text steps, Step.ofText text = .ok steps →
      Step.readAll Json.Draft.format (Json.draft (.arr (steps.map Step.toJson))) = .ok steps := by
  refine ⟨Step.ofJson_toJson, fun value => ?_, fun text steps run => ?_⟩
  · simp only [Step.ofJson_toJson]
    exact bind_pure _
  · exact Step.readAll_toJson Json.Draft.faithful_format Json.Draft.keeps_format
      (Step.kept_of_readAll Json.Draft.sound_format Json.Draft.keeps_format (Step.read_of_ofText run))

/-- One step, given by place and without an id. The kind of its operand is written as an object, and in what the operand
holds a key comes again. -/
def looseSteps : String := "[[null,\"\",\x7b\"type\":\x7b\"FIELD\":null\x7d,\"value\":\x7b\"a\":true,\"a\":[]\x7d\x7d]]"

def looseTokens : List Json.Token :=
  [.mark .listStart, .mark .listStart, .scalar .null, .mark .comma, .text (some ""), .mark .comma,
    .mark .objectStart, .text (some "type"), .mark .colon, .mark .objectStart, .text (some "FIELD"), .mark .colon,
    .scalar .null, .mark .objectEnd, .mark .comma, .text (some "value"), .mark .colon, .mark .objectStart,
    .text (some "a"), .mark .colon, .scalar (.bool true), .mark .comma, .text (some "a"), .mark .colon,
    .mark .listStart, .mark .listEnd, .mark .objectEnd, .mark .objectEnd, .mark .listEnd, .mark .listEnd]

def looseDraft : Json.Draft :=
  .arr [.arr [.null, .str "", .obj [(.text "type", .obj [(.text "FIELD", .null)] none),
    (.text "value", .obj [(.text "a", .bool true), (.text "a", .arr [] none)] none)] none] none] none

def tightSteps : List Step := [⟨"", "", ⟨.field, .obj [("a", .arr [])]⟩, "", none⟩]

/-- Of the repeated key the last value counts, and with this one the step comes back. -/
theorem looseSteps_read_back :
    Step.ofText looseSteps = .ok tightSteps ∧
      Step.readAll Json.Draft.format (Json.draft (.arr (tightSteps.map Step.toJson))) = .ok tightSteps := by
  have scanned : Json.Token.scan looseSteps.toList = looseTokens := by cbv
  have drafted : Json.Draft.ofTokens 0 looseTokens = (looseDraft, some ⟨[], by decide⟩) := by cbv
  have read : Step.ofText looseSteps = .ok tightSteps := by
    rw [Step.ofText, Json.readText, Json.Draft.ofText_of_tokens scanned drafted]
    rfl
  exact ⟨read, steps_read_back.2.2 looseSteps tightSteps read⟩

end ComputedFields
