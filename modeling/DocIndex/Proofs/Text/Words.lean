import DocIndex.Text.Words

/-!
Words of a text: the pieces between its white space, as far as there is anything in them.
-/

namespace DocIndex.Text

theorem modifyHead_nil_append (pieces : List (List Char)) :
    pieces.modifyHead (([] : List Char) ++ ·) = pieces := by
  cases pieces <;> rfl

/-- Runs are the pieces between all other characters; the open run goes before the first piece. -/
theorem runsFrom_eq (keeps : Char → Bool) (word text : List Char) :
    runsFrom keeps word text =
      ((text.splitOnP fun ch => !keeps ch).modifyHead (word.reverse ++ ·)).filter
        (!·.isEmpty) := by
  induction text generalizing word with
  | nil => cases word <;> simp [runsFrom]
  | cons ch rest ih =>
      have hrest := ih []
      rw [List.reverse_nil, modifyHead_nil_append] at hrest
      rw [runsFrom, List.splitOnP_cons_eq_if_modifyHead, hrest, ih]
      cases keeps ch with
      | true =>
          simp only [Bool.not_true, Bool.false_eq_true, if_false, if_true,
            List.modifyHead_modifyHead, List.reverse_cons, List.append_assoc]
          rfl
      | false => cases word <;> simp

/-- The words of a text are its pieces between white space that are not empty. -/
theorem mem_words_iff {s word : String} :
    word ∈ words s ↔ ∃ piece ∈ s.toList.splitOnP Unicode.isWhiteSpace,
      piece ≠ [] ∧ String.ofList piece = word := by
  rw [words, runsFrom_eq, List.reverse_nil, modifyHead_nil_append]
  simp [and_assoc]

end DocIndex.Text
