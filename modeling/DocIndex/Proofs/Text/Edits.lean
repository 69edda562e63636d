import DocIndex.Text.Edits

/-!
Misspellings. A word becomes another one by going through both of them at once: each character is
kept, or an edit is made, which inserts, removes or replaces a character or swaps two neighbours.
Two words are within a number of edits if there is such a way with no more of them.
-/

namespace DocIndex.Text

/-- A word becomes another one by so many edits. -/
inductive Edits : Nat → List Char → List Char → Prop where
  | nothing : Edits 0 [] []
  | keep {n : Nat} {word target : List Char} (ch : Char) (h : Edits n word target) :
      Edits n (ch :: word) (ch :: target)
  | insert {n : Nat} {word target : List Char} (ch : Char) (h : Edits n word target) :
      Edits (n + 1) word (ch :: target)
  | remove {n : Nat} {word target : List Char} (ch : Char) (h : Edits n word target) :
      Edits (n + 1) (ch :: word) target
  | replace {n : Nat} {word target : List Char} (a b : Char) (h : Edits n word target) :
      Edits (n + 1) (a :: word) (b :: target)
  | swap {n : Nat} {word target : List Char} (a b : Char) (h : Edits n word target) :
      Edits (n + 1) (a :: b :: word) (b :: a :: target)

namespace Edits

variable {n : Nat} {word target : List Char}

/-- No edit changes the length by more than one. -/
theorem length_le (hedits : Edits n word target) :
    word.length ≤ target.length + n ∧ target.length ≤ word.length + n := by
  induction hedits with
  | nothing => simp
  | keep _ _ ih | insert _ _ ih | remove _ _ ih | replace _ _ _ ih | swap _ _ _ ih =>
      simp only [List.length_cons]
      omega

theorem ofInsertions (target : List Char) : Edits target.length [] target := by
  induction target with
  | nil => exact .nothing
  | cons ch rest ih => exact ih.insert ch

theorem ofRemovals (word : List Char) : Edits word.length word [] := by
  induction word with
  | nil => exact .nothing
  | cons ch rest ih => exact ih.remove ch

/-- Every way with few enough edits is one that counts. -/
theorem isWithin (hedits : Edits n word target) {budget : Nat} (hbudget : n ≤ budget) :
    withinEdits budget word target = true := by
  induction hedits generalizing budget with
  | nothing => simp [withinEdits]
  | keep ch _ ih =>
      unfold withinEdits
      simp [ih hbudget]
  | @insert n word target ch hrest ih =>
      obtain ⟨budget, rfl⟩ := Nat.exists_eq_add_of_le' hbudget
      cases word with
      | nil =>
          have hlength := (hrest.insert ch).length_le.2
          simp only [withinEdits, decide_eq_true_eq]
          simp only [List.length_nil] at hlength
          omega
      | cons a word =>
          unfold withinEdits
          simp [ih (Nat.le_add_left n budget)]
  | @remove n word target ch hrest ih =>
      obtain ⟨budget, rfl⟩ := Nat.exists_eq_add_of_le' hbudget
      cases target with
      | nil =>
          have hlength := (hrest.remove ch).length_le.1
          simp only [withinEdits, decide_eq_true_eq]
          simp only [List.length_nil] at hlength
          omega
      | cons b target =>
          unfold withinEdits
          simp [ih (Nat.le_add_left n budget)]
  | @replace n word target a b _ ih =>
      obtain ⟨budget, rfl⟩ := Nat.exists_eq_add_of_le' hbudget
      unfold withinEdits
      simp [ih (Nat.le_add_left n budget)]
  | @swap n word target a b _ ih =>
      obtain ⟨budget, rfl⟩ := Nat.exists_eq_add_of_le' hbudget
      unfold withinEdits
      simp [ih (Nat.le_add_left n budget)]

end Edits

theorem exists_edits {budget : Nat} {word target : List Char}
    (hwithin : withinEdits budget word target = true) : ∃ n ≤ budget, Edits n word target := by
  fun_induction withinEdits budget word target with
  | case1 budget target => exact ⟨_, by simpa using hwithin, .ofInsertions target⟩
  | case2 budget word => exact ⟨_, by simpa using hwithin, .ofRemovals word⟩
  | case3 budget a word b target ihKeep ihRemove ihInsert ihReplace ihSwap =>
      rw [Bool.or_eq_true, Bool.and_eq_true, decide_eq_true_eq] at hwithin
      rcases hwithin with ⟨rfl, hkeep⟩ | hedit
      · obtain ⟨n, hn, hedits⟩ := ihKeep hkeep
        exact ⟨n, hn, hedits.keep a⟩
      · cases budget with
        | zero => contradiction
        | succ budget =>
            simp only [Bool.or_eq_true] at hedit
            rcases hedit with ((hremove | hinsert) | hreplace) | hswap
            · obtain ⟨n, hn, hedits⟩ := ihRemove budget hremove
              exact ⟨n + 1, Nat.succ_le_succ hn, hedits.remove a⟩
            · obtain ⟨n, hn, hedits⟩ := ihInsert budget hinsert
              exact ⟨n + 1, Nat.succ_le_succ hn, hedits.insert b⟩
            · obtain ⟨n, hn, hedits⟩ := ihReplace budget hreplace
              exact ⟨n + 1, Nat.succ_le_succ hn, hedits.replace a b⟩
            · split at hswap
              · rename_i a' word b' target
                simp only [Bool.and_eq_true, decide_eq_true_eq] at hswap
                obtain ⟨⟨rfl, rfl⟩, hrest⟩ := hswap
                obtain ⟨n, hn, hedits⟩ := ihSwap budget hrest
                exact ⟨n + 1, Nat.succ_le_succ hn, hedits.swap _ _⟩
              · contradiction

/-- Two words are within a budget if one becomes the other with no more edits than that. -/
theorem withinEdits_iff {budget : Nat} {word target : List Char} :
    withinEdits budget word target = true ↔ ∃ n ≤ budget, Edits n word target :=
  ⟨exists_edits, fun ⟨_, hn, hedits⟩ => hedits.isWithin hn⟩

end DocIndex.Text
