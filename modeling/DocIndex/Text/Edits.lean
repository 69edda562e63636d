/-!
Misspellings. One edit inserts, removes or replaces a character, or swaps two neighbours; a swapped
pair is not edited further.
-/

namespace DocIndex.Text

/-- Tells whether at most `budget` edits lead from one word to the other. -/
def withinEdits (budget : Nat) : List Char → List Char → Bool
  | [], target => target.length ≤ budget
  | word, [] => word.length ≤ budget
  | a :: word, b :: target =>
      (a = b && withinEdits budget word target)
        || match budget with
          | 0 => false
          | budget + 1 =>
              withinEdits budget word (b :: target)
                || withinEdits budget (a :: word) target
                || withinEdits budget word target
                || match word, target with
                  | a' :: word, b' :: target => a = b' && a' = b && withinEdits budget word target
                  | _, _ => false
termination_by word target => word.length + target.length

end DocIndex.Text
