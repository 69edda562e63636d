import DocIndex.Json.Reader

/-!
What the steps of reading leave to be read. A step that succeeds depends on the unread characters
alone, so lines and columns play no part here: each lemma says which characters a step takes away.
-/

namespace DocIndex

theorem bind_eq_ok_iff {ε α β : Type} {first : Except ε α} {next : α → Except ε β} {result : β} :
    (first >>= next) = .ok result ↔ ∃ a, first = .ok a ∧ next a = .ok result := by
  cases first with
  | error fault => simp [bind, Except.bind]
  | ok a => simp [bind, Except.bind]

theorem bind_eq_error_iff {ε α β : Type} {first : Except ε α} {next : α → Except ε β} {fault : ε} :
    (first >>= next) = .error fault ↔
      first = .error fault ∨ ∃ a, first = .ok a ∧ next a = .error fault := by
  cases first with
  | error other => simp [bind, Except.bind]
  | ok a => simp [bind, Except.bind]

theorem map_eq_ok_iff {ε α β : Type} {first : Except ε α} {f : α → β} {result : β} :
    first.map f = .ok result ↔ ∃ a, first = .ok a ∧ f a = result := by
  cases first <;> simp [Except.map]

theorem toOption_eq_some_iff {ε α : Type} {first : Except ε α} {result : α} :
    first.toOption = some result ↔ first = .ok result := by
  cases first <;> simp [Except.toOption]

namespace Json

/-- The result is a value, and a text is left to be read. -/
def Yields {ε α : Type} (result : Except ε (α × Cursor)) (value : α) (tail : List Char) : Prop :=
  ∃ after, result = .ok (value, after) ∧ after.rest = tail

/-- The result is a place, and a text is left to be read. -/
def Reaches {ε : Type} (result : Except ε Cursor) (tail : List Char) : Prop :=
  ∃ after, result = .ok after ∧ after.rest = tail

/-- A text that does not start with a character that may stand between tokens. -/
def StartsToken (text : List Char) : Prop :=
  ∀ ch ∈ text.head?, Cursor.isBlank ch = false

theorem startsToken_cons {ch : Char} (hch : Cursor.isBlank ch = false) (text : List Char) :
    StartsToken (ch :: text) := by
  intro other hother
  obtain rfl := Option.some.inj hother
  exact hch

namespace Cursor

variable {c : Cursor} {tail : List Char}

@[simp] theorem rest_ofString (text : String) : (ofString text).rest = text.toList := rfl

theorem rest_next (c : Cursor) : c.next.rest = c.rest.tail := by
  obtain ⟨rest, line, column⟩ := c
  cases rest with
  | nil => rfl
  | cons ch rest =>
      rw [next]
      split <;> rfl

theorem rest_next_of_cons {ch : Char} (hrest : c.rest = ch :: tail) : c.next.rest = tail := by
  rw [rest_next, hrest, List.tail_cons]

theorem rest_skip (n : Nat) (c : Cursor) : (c.skip n).rest = c.rest.drop n := by
  induction n generalizing c with
  | zero => rfl
  | succ n ih => rw [skip, ih, rest_next, List.drop_tail]

theorem rest_skip_of_append {text : List Char} (hrest : c.rest = text ++ tail) :
    (c.skip text.length).rest = tail := by
  rw [rest_skip, hrest, List.drop_left]

/-- Blanks before a token are passed over. -/
theorem rest_skipBlanks {blanks : List Char} (hblanks : ∀ ch ∈ blanks, isBlank ch = true)
    (htail : StartsToken tail) (hrest : c.rest = blanks ++ tail) : c.skipBlanks.rest = tail := by
  have htake : c.rest.takeWhile isBlank = blanks := by
    rw [hrest, List.takeWhile_append_of_pos hblanks]
    cases tail with
    | nil => simp
    | cons ch rest =>
        have hch : isBlank ch = false := htail ch rfl
        simp [hch]
  rw [skipBlanks, htake]
  exact rest_skip_of_append hrest

theorem rest_skipBlanks_of_startsToken (htail : StartsToken tail) (hrest : c.rest = tail) :
    c.skipBlanks.rest = tail := by
  have hnone : ∀ ch ∈ ([] : List Char), isBlank ch = true := by simp
  exact rest_skipBlanks hnone htail hrest

theorem reaches_expectWord (word : List Char) (hrest : c.rest = word ++ tail) :
    Reaches (c.expectWord word) tail := by
  induction word generalizing c with
  | nil => exact ⟨c, rfl, hrest⟩
  | cons ch word ih =>
      rw [List.cons_append] at hrest
      simp only [expectWord, hrest, if_true]
      exact ih (rest_next_of_cons hrest)

theorem reaches_expectColon (hrest : c.rest = ':' :: tail) : Reaches c.expectColon tail := by
  have hskipped : c.skipBlanks.rest = ':' :: tail :=
    rest_skipBlanks_of_startsToken (startsToken_cons rfl tail) hrest
  simp only [expectColon, hskipped]
  exact ⟨_, rfl, rest_next_of_cons hskipped⟩

theorem expectEnd_of_nil (hrest : c.rest = []) : c.expectEnd = .ok () := by
  have hskipped : c.skipBlanks.rest = [] :=
    rest_skipBlanks_of_startsToken (by simp [StartsToken]) hrest
  simp only [expectEnd, hskipped]

/-! Items and keys -/

section

variable {blanks : List Char} (hblanks : ∀ ch ∈ blanks, isBlank ch = true)
include hblanks

theorem nextItem_of_closing (first : Bool) (hrest : c.rest = blanks ++ ']' :: tail) :
    c.nextItem first = .ok none ∧ c.skipBlanks.next.rest = tail := by
  have hskipped : c.skipBlanks.rest = ']' :: tail :=
    rest_skipBlanks hblanks (startsToken_cons rfl tail) hrest
  refine ⟨?_, rest_next_of_cons hskipped⟩
  simp only [nextItem, hskipped]

theorem nextKey_of_closing (first : Bool) (hrest : c.rest = blanks ++ '}' :: tail) :
    c.nextKey first = .ok none ∧ c.skipBlanks.next.rest = tail := by
  have hskipped : c.skipBlanks.rest = '}' :: tail :=
    rest_skipBlanks hblanks (startsToken_cons rfl tail) hrest
  refine ⟨?_, rest_next_of_cons hskipped⟩
  simp only [nextKey, hskipped]

/-- The first item needs no comma before it, and every other one does. -/
theorem nextItem_of_item (first : Bool) {ch : Char} (hblank : isBlank ch = false) (hch : ch ≠ ']')
    (hrest : c.rest = (if first then [] else [',']) ++ blanks ++ ch :: tail) :
    ∃ item, c.nextItem first = .ok (some item) ∧ item.rest = ch :: tail := by
  cases first with
  | true =>
      have hskipped : c.skipBlanks.rest = ch :: tail :=
        rest_skipBlanks hblanks (startsToken_cons hblank tail) (by simpa using hrest)
      refine ⟨c.skipBlanks, ?_, hskipped⟩
      simp [nextItem, hskipped]
  | false =>
      have hcomma : c.skipBlanks.rest = ',' :: (blanks ++ ch :: tail) :=
        rest_skipBlanks_of_startsToken (startsToken_cons rfl _) (by simpa using hrest)
      have hskipped : c.skipBlanks.next.skipBlanks.rest = ch :: tail :=
        rest_skipBlanks hblanks (startsToken_cons hblank tail) (rest_next_of_cons hcomma)
      refine ⟨c.skipBlanks.next.skipBlanks, ?_, hskipped⟩
      simp [nextItem, hcomma, hskipped]

/-- The first key needs no comma before it, and every other one does. -/
theorem nextKey_of_key (first : Bool)
    (hrest : c.rest = (if first then [] else [',']) ++ blanks ++ '"' :: tail) :
    ∃ key, c.nextKey first = .ok (some key) ∧ key.rest = tail := by
  cases first with
  | true =>
      have hskipped : c.skipBlanks.rest = '"' :: tail :=
        rest_skipBlanks hblanks (startsToken_cons rfl tail) (by simpa using hrest)
      refine ⟨c.skipBlanks.next, ?_, rest_next_of_cons hskipped⟩
      simp [nextKey, hskipped]
  | false =>
      have hcomma : c.skipBlanks.rest = ',' :: (blanks ++ '"' :: tail) :=
        rest_skipBlanks_of_startsToken (startsToken_cons rfl _) (by simpa using hrest)
      have hskipped : c.skipBlanks.next.skipBlanks.rest = '"' :: tail :=
        rest_skipBlanks hblanks (startsToken_cons rfl tail) (rest_next_of_cons hcomma)
      refine ⟨c.skipBlanks.next.skipBlanks.next, ?_, rest_next_of_cons hskipped⟩
      simp [nextKey, hcomma, hskipped]

end

end Cursor

end Json

end DocIndex
