import DocIndex.Document.Typed

/-!
What a history of calls says about documents. A document that was added is published if a commit
follows before anything is given up, and it is pending if neither has happened yet. A published
document was added before every pending one, so that a commit puts those behind it.
-/

namespace DocIndex

/-- What a call does to the documents of an index. -/
inductive Event where
  | added (document : Document)
  | committed
  /-- What was not committed is given up. -/
  | discarded
  | nothing
deriving Repr, DecidableEq

/-- Tells whether a commit comes before anything is given up. -/
def commitsFirst : List Event → Bool
  | [] => false
  | .committed :: _ => true
  | .discarded :: _ => false
  | _ :: later => commitsFirst later

/-- Tells whether nothing is committed or given up. -/
def waits : List Event → Bool
  | [] => true
  | .committed :: _ => false
  | .discarded :: _ => false
  | _ :: later => waits later

/-- The documents that were added and then committed, with nothing given up in between. -/
def published : List Event → List Document
  | [] => []
  | .added document :: later =>
      if commitsFirst later then document :: published later else published later
  | _ :: later => published later

/-- The documents that were added and neither committed nor given up. -/
def pending : List Event → List Document
  | [] => []
  | .added document :: later =>
      if waits later then document :: pending later else pending later
  | _ :: later => pending later

theorem commitsFirst_iff (later : List Event) :
    commitsFirst later = true ↔
      ∃ before after, later = before ++ .committed :: after ∧ .discarded ∉ before := by
  induction later with
  | nil => simp [commitsFirst]
  | cons event rest ih =>
      have hcons (hne : event ≠ .committed) (hkept : event ≠ .discarded) :
          (∃ before after, rest = before ++ .committed :: after ∧ .discarded ∉ before) ↔
            ∃ before after, event :: rest = before ++ .committed :: after ∧
              .discarded ∉ before := by
        constructor
        · rintro ⟨before, after, rfl, hbefore⟩
          exact ⟨event :: before, after, rfl, by simp [hkept.symm, hbefore]⟩
        · rintro ⟨before, after, hrest, hbefore⟩
          cases before with
          | nil => exact absurd (List.cons.inj hrest).1 hne
          | cons first before =>
              obtain ⟨rfl, rfl⟩ := List.cons.inj hrest
              exact ⟨before, after, rfl, fun h => hbefore (List.mem_cons_of_mem _ h)⟩
      cases event with
      | added document => exact ih.trans (hcons (by simp) (by simp))
      | committed =>
          simp only [commitsFirst, true_iff]
          exact ⟨[], rest, rfl, by simp⟩
      | discarded =>
          simp only [commitsFirst, Bool.false_eq_true, false_iff]
          rintro ⟨before, after, hrest, hbefore⟩
          cases before with
          | nil => simp at hrest
          | cons first before =>
              obtain ⟨rfl, -⟩ := List.cons.inj hrest
              exact hbefore List.mem_cons_self
      | nothing => exact ih.trans (hcons (by simp) (by simp))

theorem waits_iff (later : List Event) :
    waits later = true ↔ .committed ∉ later ∧ .discarded ∉ later := by
  induction later with
  | nil => simp [waits]
  | cons event rest ih => cases event <;> simp [waits, ih]

theorem waits_eq_false_of_commitsFirst {later : List Event} (hfirst : commitsFirst later = true) :
    waits later = false := by
  rw [← Bool.not_eq_true, waits_iff]
  obtain ⟨before, after, rfl, -⟩ := (commitsFirst_iff later).mp hfirst
  simp

theorem commitsFirst_concat (later : List Event) (event : Event) :
    commitsFirst (later ++ [event]) =
      (commitsFirst later || (waits later && decide (event = .committed))) := by
  induction later with
  | nil => cases event <;> rfl
  | cons first rest ih => cases first <;> simp [commitsFirst, waits, ih]

theorem waits_concat (later : List Event) (event : Event) :
    waits (later ++ [event]) = (waits later && waits [event]) := by
  induction later with
  | nil => rfl
  | cons first rest ih => cases first <;> simp [waits, ih]

theorem published_of_waits {events : List Event} (hwaits : waits events = true) :
    published events = [] := by
  induction events with
  | nil => rfl
  | cons event rest ih =>
      cases event with
      | added document =>
          have hrest : waits rest = true := hwaits
          have hfirst : commitsFirst rest = false := by
            rw [← Bool.not_eq_true]
            intro hfirst
            simp [waits_eq_false_of_commitsFirst hfirst] at hrest
          rw [published, hfirst, if_neg Bool.false_ne_true, ih hrest]
      | committed => contradiction
      | discarded => contradiction
      | nothing => exact ih hwaits

/-- What a commit follows first is published. -/
theorem mem_published {later : List Event} (hfirst : commitsFirst later = true)
    (document : Document) (earlier : List Event) :
    document ∈ published (earlier ++ .added document :: later) := by
  induction earlier with
  | nil =>
      rw [List.nil_append, published, if_pos hfirst]
      exact List.mem_cons_self
  | cons event rest ih =>
      cases event with
      | added other =>
          rw [List.cons_append, published]
          split
          · exact List.mem_cons_of_mem _ ih
          · exact ih
      | committed | discarded | nothing => exact ih

/-- A commit publishes the pending documents, behind those published before. -/
theorem published_concat_committed (events : List Event) :
    published (events ++ [.committed]) = published events ++ pending events := by
  induction events with
  | nil => rfl
  | cons event rest ih =>
      cases event with
      | added document =>
          simp only [List.cons_append, published, pending, commitsFirst_concat, ih]
          -- A document that was published already does not wait; before one that waits, none was.
          cases hfirst : commitsFirst rest with
          | true => simp [waits_eq_false_of_commitsFirst hfirst]
          | false =>
              cases hwaits : waits rest with
              | true => simp [published_of_waits hwaits]
              | false => simp
      | committed | discarded | nothing => exact ih

theorem published_concat {event : Event} (hevent : event ≠ .committed) (events : List Event) :
    published (events ++ [event]) = published events := by
  induction events with
  | nil => cases event <;> simp_all [published, commitsFirst]
  | cons first rest ih =>
      cases first with
      | added document =>
          simp only [List.cons_append, published, commitsFirst_concat, ih]
          simp [hevent]
      | committed | discarded | nothing => exact ih

theorem pending_concat_added (events : List Event) (document : Document) :
    pending (events ++ [.added document]) = pending events ++ [document] := by
  induction events with
  | nil => rfl
  | cons first rest ih =>
      cases first with
      | added other =>
          simp only [List.cons_append, pending, waits_concat, ih]
          cases waits rest <;> simp [waits]
      | committed | discarded | nothing => exact ih

theorem pending_concat_nothing (events : List Event) :
    pending (events ++ [.nothing]) = pending events := by
  induction events with
  | nil => rfl
  | cons first rest ih =>
      cases first with
      | added other =>
          simp only [List.cons_append, pending, waits_concat, ih]
          cases waits rest <;> simp [waits]
      | committed | discarded | nothing => exact ih

/-- A commit, or giving up, leaves nothing pending. -/
theorem pending_concat_of_ends {event : Event} (hevent : waits [event] = false)
    (events : List Event) : pending (events ++ [event]) = [] := by
  induction events with
  | nil => cases event <;> simp_all [pending, waits]
  | cons first rest ih =>
      cases first with
      | added other => simp [pending, waits_concat, ih, hevent]
      | committed | discarded | nothing => exact ih

end DocIndex
