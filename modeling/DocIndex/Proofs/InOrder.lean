import Mathlib.Data.List.Basic

/-!
Checks made one after another: the first that fails decides.
-/

namespace DocIndex

variable {ε α β : Type} {check : α → Except ε Unit}

theorem forM_eq_ok_iff {items : List α} :
    forM items check = .ok () ↔ ∀ item ∈ items, check item = .ok () := by
  induction items with
  | nil => simp [pure, Except.pure]
  | cons item rest ih =>
      rw [List.forM_cons, List.forall_mem_cons, ← ih]
      cases check item <;> simp [bind, Except.bind]

theorem forM_congr {other : α → Except ε Unit} {items : List α}
    (hitems : ∀ item ∈ items, check item = other item) : forM items check = forM items other := by
  induction items with
  | nil => rfl
  | cons item rest ih =>
      obtain ⟨hfirst, hrest⟩ := List.forall_mem_cons.mp hitems
      rw [List.forM_cons, List.forM_cons, hfirst, ih hrest]

theorem forM_flatMap (lists : β → List α) (keys : List β) :
    forM (keys.flatMap lists) check = forM keys fun key => forM (lists key) check := by
  induction keys with
  | nil => rfl
  | cons key rest ih => rw [List.flatMap_cons, List.forM_append, List.forM_cons, ih]

/-- What is reported is what is wrong with the first item that does not pass. -/
theorem forM_eq_find? {passes : α → Bool} (hpasses : ∀ item, passes item ↔ check item = .ok ())
    (items : List α) :
    forM items check =
      match items.find? fun item => !passes item with
      | none => .ok ()
      | some item => check item := by
  induction items with
  | nil => rfl
  | cons item rest ih =>
      rw [List.forM_cons, ih, List.find?_cons]
      cases hitem : passes item with
      | true => simp [(hpasses item).mp hitem, bind, Except.bind]
      | false =>
          cases hcheck : check item with
          | ok _ => simp [(hpasses item).mpr hcheck] at hitem
          | error fault => exact hcheck.symm

end DocIndex
