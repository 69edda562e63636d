import DocIndex.Json.Writer

/-!
What a text in one line looks like: the parts of a container stand one after the other with commas
between them, each with the text that it has on its own.
-/

namespace DocIndex.Json

def memberText (member : String × Json) : List Char :=
  quotedText member.1 ++ ':' :: member.2.compact.toList

mutual

/-- Without lines it makes no difference how deep a value stands. -/
theorem writeValue_none (value : Json) (level : Nat) :
    writeValue .none level value = writeValue .none 0 value := by
  cases value with
  | array items => rw [writeValue, writeValue, writeItems_none_level items level]
  | object members => rw [writeValue, writeValue, writeMembers_none_level members level]
  | bool b => cases b <;> rfl
  | null | integer | float | string => rfl
  termination_by structural value

theorem writeItems_none_level (items : List Json) (level : Nat) (first : Bool) :
    writeItems .none level first items = writeItems .none 0 first items := by
  cases items with
  | nil => rfl
  | cons item rest =>
      rw [writeItems, writeItems, writeValue_none item, writeValue_none item (0 + 1),
        writeItems_none_level rest]
      rfl
  termination_by structural items

theorem writeMembers_none_level (members : List (String × Json)) (level : Nat) (first : Bool) :
    writeMembers .none level first members = writeMembers .none 0 first members := by
  cases members with
  | nil => rfl
  | cons member rest =>
      rw [writeMembers, writeMembers, writeMember_none member, writeMember_none member (0 + 1),
        writeMembers_none_level rest]
      rfl
  termination_by structural members

theorem writeMember_none (member : String × Json) (level : Nat) :
    writeMember .none level member = writeMember .none 0 member := by
  obtain ⟨key, value⟩ := member
  rw [writeMember, writeMember, writeValue_none value]
  termination_by structural member

end

theorem toList_compact (value : Json) (level : Nat) :
    value.compact.toList = writeValue .none level value := by
  rw [compact, String.toList_ofList, writeValue_none value level]

theorem memberText_eq (member : String × Json) (level : Nat) :
    memberText member = writeMember .none level member := by
  obtain ⟨key, value⟩ := member
  rw [memberText, toList_compact value level, writeMember, List.append_assoc]
  rfl

/-- What is written with commas between its parts. -/
theorem eq_intercalate {α : Type} {write : Bool → List α → List Char} {text : α → List Char}
    {closing : List Char} (hnil : ∀ first, write first [] = closing)
    (hcons : ∀ first part rest, write first (part :: rest) =
      (if first then [] else [',']) ++ text part ++ write false rest) (parts : List α) :
    write true parts = [','].intercalate (parts.map text) ++ closing := by
  induction parts with
  | nil => exact hnil true
  | cons part rest ih =>
      rw [hcons, if_pos rfl, List.nil_append]
      cases rest with
      | nil => rw [hnil, List.map_cons, List.map_nil, List.intercalate_singleton]
      | cons next others =>
          have hnext : write false (next :: others) = ',' :: write true (next :: others) := by
            rw [hcons, hcons]
            rfl
          rw [List.map_cons] at ih
          rw [hnext, ih, List.map_cons, List.map_cons, List.intercalate_cons_cons]
          simp only [List.append_assoc, List.cons_append, List.nil_append]

theorem writeItems_none (items : List Json) (level : Nat) :
    writeItems .none level true items =
      [','].intercalate (items.map fun item => item.compact.toList) ++ [']'] := by
  refine eq_intercalate (fun first => by cases first <;> rfl) (fun first item rest => ?_) items
  rw [toList_compact item (level + 1), writeItems, Spacing.lead, Spacing.none, List.append_nil]

theorem writeMembers_none (members : List (String × Json)) (level : Nat) :
    writeMembers .none level true members =
      [','].intercalate (members.map memberText) ++ ['}'] := by
  refine eq_intercalate (fun first => by cases first <;> rfl) (fun first member rest => ?_) members
  rw [memberText_eq member (level + 1), writeMembers, Spacing.lead, Spacing.none, List.append_nil]

/-- The text of an array: its items within brackets. -/
theorem compact_array (items : List Json) :
    (array items).compact.toList =
      '[' :: ([','].intercalate (items.map fun item => item.compact.toList) ++ [']']) := by
  rw [toList_compact _ 0, writeValue, writeItems_none]

/-- The text of an object: its members within braces. -/
theorem compact_object (members : List (String × Json)) :
    (object members).compact.toList =
      '{' :: ([','].intercalate (members.map memberText) ++ ['}']) := by
  rw [toList_compact _ 0, writeValue, writeMembers_none]

end DocIndex.Json
