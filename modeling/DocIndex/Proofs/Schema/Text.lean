import DocIndex.Proofs.Json.Decoding
import DocIndex.Schema.Text
import Mathlib.Data.List.Forall2

/-!
A schema comes back from its text, whatever its names are made of and whichever of its keys were
left out.
-/

namespace DocIndex

open Json

namespace FieldDef

theorem variantOf_kind (kind : FieldKind) : Stream.variantOf kindWords kind.word = .ok kind := by
  cases kind <;> rfl

theorem variantOf_tokenizer (tokenizer : Tokenizer) :
    Stream.variantOf tokenizerWords tokenizer.word = .ok tokenizer := by
  cases tokenizer <;> rfl

/-- The keys of a field definition, as far as they are stored. -/
def given (field : FieldDef) : Partial where
  name := some field.name
  kind := some field.kind
  stored := some field.stored
  indexed := some field.indexed
  fast := some field.fast
  tokenizer := field.tokenizer.map some

theorem finish_given (field : FieldDef) : field.given.finish = .ok field := by
  obtain ⟨name, kind, stored, indexed, fast, tokenizer⟩ := field
  cases tokenizer <;> rfl

/-- The stored keys, one after the other, leave what they give. -/
theorem takes_toJson (field : FieldDef) (tokenizer : List (String × Json))
    (htokenizer : Takes decodeMember tokenizer { field.given with tokenizer := none } field.given) :
    Takes decodeMember
      ([("name", .string field.name), ("type", .string field.kind.word),
        ("stored", .bool field.stored), ("indexed", .bool field.indexed),
        ("fast", .bool field.fast)] ++ tokenizer) {} field.given := by
  refine .cons (decodes_key Partial.name (fun before a => { before with name := a })
    (fun _ => rfl) (decodes_string "a string" field.name) rfl) ?_
  refine .cons (decodes_key Partial.kind (fun before a => { before with kind := a })
    (fun _ => rfl) (decodes_variant (variantOf_kind field.kind)) rfl) ?_
  refine .cons (decodes_key Partial.stored (fun before a => { before with stored := a })
    (fun _ => rfl) (decodes_boolean field.stored) rfl) ?_
  refine .cons (decodes_key Partial.indexed (fun before a => { before with indexed := a })
    (fun _ => rfl) (decodes_boolean field.indexed) rfl) ?_
  refine .cons (decodes_key Partial.fast (fun before a => { before with fast := a })
    (fun _ => rfl) (decodes_boolean field.fast) rfl) ?_
  exact htokenizer

/-- A field definition comes back from its JSON. -/
theorem decodes_toJson (field : FieldDef) : Decodes decode field.toJson field := by
  obtain ⟨name, kind, stored, indexed, fast, tokenizer⟩ := field
  apply decodes_record
  refine DecodesMembers.finish (decodesMembers_of_takes (takes_toJson _ _ ?_)) (finish_given _)
  cases tokenizer with
  | none => exact .nil _
  | some tokenizer =>
      have hword := decodes_optional (decodes_variant (variantOf_tokenizer tokenizer))
      refine .cons (decodes_key Partial.tokenizer (fun before a => { before with tokenizer := a })
        (fun _ => rfl) hword rfl) ?_
      exact .nil _

end FieldDef

namespace SchemaDef

theorem decodes_fields (fields : List FieldDef) :
    Decodes (Stream.sequence FieldDef.decode) (.array (fields.map FieldDef.toJson)) fields := by
  apply decodes_sequence
  rw [List.forall₂_map_left_iff, List.forall₂_same]
  exact fun field _ => field.decodes_toJson

theorem decodes_names (names : List String) :
    Decodes (Stream.sequence (Stream.string "a string")) (.array (names.map .string)) names := by
  apply decodes_sequence
  rw [List.forall₂_map_left_iff, List.forall₂_same]
  exact fun name _ => decodes_string "a string" name

theorem exists_takes (fields : List FieldDef) (names : List String) :
    ∃ found : Partial,
      Takes decodeMember
        (("fields", .array (fields.map FieldDef.toJson)) ::
          match names with
          | [] => []
          | names => [("search_fields", .array (names.map .string))]) {} found ∧
        found.fields = some fields ∧ found.searchFields.getD [] = names := by
  have hfirst : Decodes (decodeMember "fields" {}) (.array (fields.map FieldDef.toJson))
      { fields := some fields } :=
    decodes_key Partial.fields (fun before a => { before with fields := a }) (fun _ => rfl)
      (decodes_fields fields) rfl
  cases names with
  | nil => exact ⟨_, .cons hfirst (.nil _), rfl, rfl⟩
  | cons name rest =>
      have hsecond : Decodes (decodeMember "search_fields" { fields := some fields })
          (.array ((name :: rest).map .string))
          { fields := some fields, searchFields := some (name :: rest) } :=
        decodes_key Partial.searchFields (fun before a => { before with searchFields := a })
          (fun _ => rfl) (decodes_names (name :: rest)) rfl
      exact ⟨_, .cons hfirst (.cons hsecond (.nil _)), rfl, rfl⟩

/-- A schema definition comes back from its JSON; a list of names that is left out is empty. -/
theorem decodes_toJson (definition : SchemaDef) :
    Decodes (Stream.record "struct SchemaDef" decodeMembers decodeItems) definition.toJson
      definition := by
  obtain ⟨found, htakes, hfields, hnames⟩ :=
    exists_takes definition.fields definition.searchFields
  apply decodes_record
  intro spacing hspacing level c tail hrest
  obtain ⟨after, hread, hafter⟩ := decodesMembers_of_takes htakes hspacing hrest
  refine ⟨after, ?_, hafter⟩
  simp only [decodeMembers, hread, hfields, Stream.required, hnames, bind, Except.bind, pure,
    Except.pure]

theorem ofText_pretty (definition : SchemaDef) : ofText definition.toJson.pretty = .ok definition :=
  decode_of_decodes (decodes_toJson definition) Spacing.isBlank_lines

end SchemaDef

/-- A schema comes back from the text under which it is stored. -/
theorem Schema.ofText_toText (schema : Schema) : Schema.ofText schema.toText = .ok schema := by
  rw [ofText, toText, SchemaDef.ofText_pretty]
  exact SchemaDef.compile_of_check schema.checked

end DocIndex
