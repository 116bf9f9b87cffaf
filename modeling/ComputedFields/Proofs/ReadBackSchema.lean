import ComputedFields.Proofs.FaithfulFormat
import ComputedFields.Proofs.SettledCase

namespace ComputedFields

/-- A type is read as itself from its own text. There are others: a type that was not read but made up may have a name
in capitals. -/
def FieldType.Spelled (type : FieldType) : Prop := FieldType.ofText type.text = type

/-- The text of a type is the text that it was read from, trimmed and in small letters. Known types make no
exception. -/
theorem FieldType.text_ofText (s : String) : (FieldType.ofText s).text = Text.lower (Text.trim s) := by
  unfold FieldType.ofText
  simp only
  split_ifs with h₁ h₂ h₃ h₄ h₅ h₆
  · exact h₁.symm
  · exact h₂.symm
  · exact h₃.symm
  · exact h₄.symm
  · exact h₅.symm
  · exact h₆.symm
  · rfl

theorem FieldType.ofText_congr {s t : String} (same : Text.lower (Text.trim s) = Text.lower (Text.trim t)) :
    FieldType.ofText s = FieldType.ofText t := by
  simp only [FieldType.ofText, same]

/-- Reading a type settles its text once and for all. -/
theorem FieldType.spelled_ofText (s : String) : (FieldType.ofText s).Spelled := by
  apply FieldType.ofText_congr
  rw [FieldType.text_ofText, Text.lower_trim_idem]

def Field.Spelled (field : Field) : Prop := field.type.Spelled

def Model.Spelled (model : Model) : Prop := ∀ field ∈ model.fields, field.Spelled

def Schema.Spelled (schema : Schema) : Prop := ∀ model ∈ schema.models, model.Spelled

section

variable {ε ν : Type} {F : Format (Except ε) ν} {node : Json → ν}

/-- Which of the optional members are there does not matter: one that was left out is read as one that is missing. -/
theorem Field.read_toJson (faithful : F.Faithful node) {field : Field} (spelled : field.Spelled) :
    Field.read F (node field.toJson) = .ok field := by
  obtain ⟨name, type, relation, multiple, label⟩ := field
  have settled : FieldType.ofText type.text = type := spelled
  cases relation <;> cases label <;>
    simp [Field.read, Field.toJson, optionalMember, faithful.gather, Format.fillMember, Field.slots, Format.need,
      faithful.text, faithful.flag, faithful.optional_text, settled, ok_bind, pure_eq_ok]

theorem Model.read_toJson (faithful : F.Faithful node) {model : Model} (spelled : model.Spelled) :
    Model.read F (node model.toJson) = .ok model := by
  obtain ⟨name, label, fields⟩ := model
  have back : F.list (Field.read F) (node (.arr (fields.map Field.toJson))) = .ok fields :=
    faithful.list_map fun field member => Field.read_toJson faithful (spelled field member)
  cases label <;>
    simp [Model.read, Model.toJson, optionalMember, faithful.gather, Format.fillMember, Model.slots, Format.need,
      faithful.text, faithful.optional_text, back, ok_bind, pure_eq_ok]

/-- A schema is read back from what is written, model by model and field by field, in any faithful format. -/
theorem Schema.read_toJson (faithful : F.Faithful node) {schema : Schema} (spelled : schema.Spelled) :
    Schema.read F (node schema.toJson) = .ok schema := by
  obtain ⟨models⟩ := schema
  have back : F.list (Model.read F) (node (.arr (models.map Model.toJson))) = .ok models :=
    faithful.list_map fun model member => Model.read_toJson faithful (spelled model member)
  simp [Schema.read, Schema.toJson, faithful.gather, Format.fillMember, Schema.slots, Format.need, back, ok_bind,
    pure_eq_ok]

/-- Only one of the slots of a field sets its type, and it does so from a text. -/
theorem Field.spelled_of_fill {slot : Slot (Except ε) ν Field.Parts} (member : slot ∈ Field.slots F) {n : ν}
    {parts parts' : Field.Parts} (before : ∀ type ∈ parts.type, type.Spelled) (run : slot.fill n parts = .ok parts') :
    ∀ type ∈ parts'.type, type.Spelled := by
  simp only [Field.slots, List.mem_cons, List.not_mem_nil, or_false] at member
  rcases member with rfl | rfl | rfl | rfl | rfl
  case inr.inl =>
    obtain ⟨text, _, same⟩ := bind_eq_ok_iff.mp run
    cases same
    intro type set
    obtain rfl := Option.some.inj set
    exact FieldType.spelled_ofText text
  all_goals
    obtain ⟨_, _, same⟩ := bind_eq_ok_iff.mp run
    cases same
    exact before

theorem Field.spelled_of_read (sound : F.Sound) {n : ν} {field : Field} (run : Field.read F n = .ok field) :
    field.Spelled := by
  obtain ⟨parts, gathered, rest⟩ := bind_eq_ok_iff.mp run
  obtain ⟨name, _, rest⟩ := bind_eq_ok_iff.mp rest
  obtain ⟨type, needed, rest⟩ := bind_eq_ok_iff.mp rest
  cases rest
  have typed := sound.gather (P := fun parts => ∀ type ∈ parts.type, type.Spelled)
    (fun _ member _ _ _ => Field.spelled_of_fill member) nofun gathered
  exact typed type (sound.need needed)

theorem Model.spelled_of_fill (sound : F.Sound) {slot : Slot (Except ε) ν Model.Parts} (member : slot ∈ Model.slots F)
    {n : ν} {parts parts' : Model.Parts} (before : ∀ fields ∈ parts.fields, ∀ field ∈ fields, field.Spelled)
    (run : slot.fill n parts = .ok parts') : ∀ fields ∈ parts'.fields, ∀ field ∈ fields, field.Spelled := by
  simp only [Model.slots, List.mem_cons, List.not_mem_nil, or_false] at member
  rcases member with rfl | rfl | rfl
  case inr.inr =>
    obtain ⟨fields, listed, same⟩ := bind_eq_ok_iff.mp run
    cases same
    rintro _ ⟨⟩ field member
    obtain ⟨item, here⟩ := sound.list listed field member
    exact Field.spelled_of_read sound here
  all_goals
    obtain ⟨_, _, same⟩ := bind_eq_ok_iff.mp run
    cases same
    exact before

theorem Model.spelled_of_read (sound : F.Sound) {n : ν} {model : Model} (run : Model.read F n = .ok model) :
    model.Spelled := by
  obtain ⟨parts, gathered, rest⟩ := bind_eq_ok_iff.mp run
  obtain ⟨name, _, rest⟩ := bind_eq_ok_iff.mp rest
  cases rest
  have typed := sound.gather (P := fun parts => ∀ fields ∈ parts.fields, ∀ field ∈ fields, field.Spelled)
    (fun _ member _ _ _ => Model.spelled_of_fill sound member) nofun gathered
  -- A model without fields was given none, and then there is nothing to check.
  cases present : parts.fields with
  | none => simp [Model.Spelled]
  | some fields => simpa [Model.Spelled, present] using typed fields present

theorem Schema.spelled_of_fill (sound : F.Sound) {slot : Slot (Except ε) ν Schema.Parts}
    (member : slot ∈ Schema.slots F) {n : ν} {parts parts' : Schema.Parts} (run : slot.fill n parts = .ok parts') :
    ∀ models ∈ parts'.models, ∀ model ∈ models, model.Spelled := by
  cases List.mem_singleton.mp member
  obtain ⟨models, listed, same⟩ := bind_eq_ok_iff.mp run
  cases same
  rintro _ ⟨⟩ model among
  obtain ⟨item, here⟩ := sound.list listed model among
  exact Model.spelled_of_read sound here

/-- Whatever a schema was read from, its types are spelled as they will be written. -/
theorem Schema.spelled_of_read (sound : F.Sound) {n : ν} {schema : Schema} (run : Schema.read F n = .ok schema) :
    schema.Spelled := by
  obtain ⟨parts, gathered, rest⟩ := bind_eq_ok_iff.mp run
  obtain ⟨models, needed, rest⟩ := bind_eq_ok_iff.mp rest
  cases rest
  have typed := sound.gather (P := fun parts => ∀ models ∈ parts.models, ∀ model ∈ models, model.Spelled)
    (fun _ member _ _ _ _ => Schema.spelled_of_fill sound member) nofun gathered
  exact typed models (sound.need needed)

end

theorem Model.get?_toJson (model : Model) :
    model.toJson.get? "label" = model.label.map .str ∧
      model.toJson.get? "fields" = some (.arr (model.fields.map Field.toJson)) := by
  obtain ⟨name, label, fields⟩ := model
  cases label <;> exact ⟨rfl, rfl⟩

theorem Field.get?_toJson (field : Field) :
    field.toJson.get? "relation" = field.relation.map .str ∧ field.toJson.get? "label" = field.label.map .str := by
  obtain ⟨name, type, relation, multiple, label⟩ := field
  cases relation <;> cases label <;> exact ⟨rfl, rfl⟩

/-- A schema is read back exactly if each of its types is what its own text is read as. -/
theorem Schema.ofJson_toJson_iff (schema : Schema) : Schema.ofJson schema.toJson = .ok schema ↔ schema.Spelled :=
  ⟨Schema.spelled_of_read Json.sound_format, Schema.read_toJson Json.faithful_format⟩

/-- A schema that was read is written so that it is read again as it is, with what it does not have left out. This is
because the text of a type that was read stays as it is, whatever that type is. -/
theorem schema_reads_back :
    (∀ value schema, Schema.ofJson value = .ok schema → Schema.ofJson schema.toJson = .ok schema) ∧
    (∀ schema : Schema, Schema.ofJson schema.toJson = .ok schema ↔
      ∀ model ∈ schema.models, ∀ field ∈ model.fields, FieldType.ofText field.type.text = field.type) ∧
    (∀ schema : Schema, schema.toJson.get? "models" = some (.arr (schema.models.map Model.toJson))) ∧
    (∀ model : Model, model.toJson.get? "label" = model.label.map .str ∧
      model.toJson.get? "fields" = some (.arr (model.fields.map Field.toJson))) ∧
    (∀ field : Field, field.toJson.get? "relation" = field.relation.map .str ∧
      field.toJson.get? "label" = field.label.map .str) ∧
    (∀ text, (FieldType.ofText text).text = Text.lower (Text.trim text)) ∧
    ∀ text, FieldType.ofText (FieldType.ofText text).text = FieldType.ofText text := by
  refine ⟨?_, Schema.ofJson_toJson_iff, fun _ => rfl, Model.get?_toJson, Field.get?_toJson, FieldType.text_ofText,
    FieldType.spelled_ofText⟩
  intro value schema run
  exact (Schema.ofJson_toJson_iff schema).mpr (Schema.spelled_of_read Json.sound_format run)

/-- A field that is given by place, of a type in capitals that ends in a sigma, and one with an empty relation and a
member that no field has. -/
def looseSchema : Json :=
  .obj [("models", .arr [.obj [("fields", .arr [.arr [.str "lot", .str "\u2003ΟΔΟΣ ", .null, .bool true],
    .obj [("type", .str " DateTime"), ("unit", .null), ("relation", .null), ("name", .str "due")]]),
    ("name", .str "orders"), ("label", .null)]])]

def tightSchema : Schema :=
  ⟨[⟨"orders", none, [⟨"lot", .other "οδος", none, true, none⟩, ⟨"due", .datetime, none, false, none⟩]⟩]⟩

/-- The loose schema is read into one that is written differently, and this one reads back as it is. -/
theorem looseSchema_reads_back :
    Schema.ofJson looseSchema = .ok tightSchema ∧ Schema.ofJson tightSchema.toJson = .ok tightSchema := by
  have lot : FieldType.ofText "\u2003ΟΔΟΣ " = .other "οδος" := by decide +kernel
  have due : FieldType.ofText " DateTime" = .datetime := by decide +kernel
  have loose : Schema.ofJson looseSchema = .ok tightSchema := by
    rw [tightSchema, ← lot, ← due]
    rfl
  exact ⟨loose, schema_reads_back.1 looseSchema tightSchema loose⟩

end ComputedFields
