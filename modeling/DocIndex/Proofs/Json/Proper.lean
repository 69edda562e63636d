import DocIndex.Proofs.Decimal.Finite
import DocIndex.Proofs.Json.Parts

/-!
What a reader of JSON gives: whatever the text, the floats within the value are finite and the
integers within it have 64 bits.
-/

namespace DocIndex.Json

/-- Not a number, or such a number as a reader gives. -/
def IsReadable : Json → Prop
  | .integer n => IsWord n
  | .float x => x.isFinite = true
  | _ => True

/-- All numbers within the value are such as a reader gives. -/
def Proper (value : Json) : Prop :=
  ∀ part ∈ value.parts, part.IsReadable

theorem proper_null : null.Proper := by simp [Proper, parts, IsReadable]

theorem proper_bool (b : Bool) : (bool b).Proper := by simp [Proper, parts, IsReadable]

theorem proper_string (s : String) : (string s).Proper := by simp [Proper, parts, IsReadable]

theorem proper_float {x : Float} (hx : x.isFinite = true) : (float x).Proper := by
  simpa [Proper, parts, IsReadable] using hx

theorem proper_integer {n : Int} (hn : IsWord n) : (integer n).Proper := by
  simpa [Proper, parts, IsReadable] using hn

theorem proper_array {items : List Json} (hitems : ∀ item ∈ items, item.Proper) :
    (array items).Proper :=
  forall_parts_array_iff.mpr ⟨trivial, hitems⟩

theorem proper_object {members : List (String × Json)}
    (hmembers : ∀ member ∈ members, member.2.Proper) : (object members).Proper :=
  forall_parts_object_iff.mpr ⟨trivial, hmembers⟩

theorem Proper.member {members : List (String × Json)} (hobject : (object members).Proper) :
    ∀ member ∈ members, member.2.Proper :=
  (forall_parts_object_iff.mp hobject).2

/-! Numbers -/

theorem isWord_of_integerValue? {isNegative : Bool} {digits : List Nat} {n : Int}
    (hvalue : integerValue? isNegative digits = some n) : IsWord n := by
  unfold integerValue? at hvalue
  dsimp only at hvalue
  split at hvalue
  · split at hvalue
    · cases hvalue
    · rename_i hbound
      obtain rfl := Option.some.inj hvalue
      have hsize : signWeight < UInt64.size := by decide
      constructor <;> omega
  · split at hvalue
    · rename_i hbound
      obtain rfl := Option.some.inj hvalue
      exact isWord_natCast hbound
    · cases hvalue

theorem proper_of_floatValue {isNegative : Bool} {whole fraction : List Nat}
    {exponent : Option Exponent} {after : Cursor} {value : Json}
    (hvalue : floatValue isNegative whole fraction exponent after = .ok value) : value.Proper := by
  have hsigned {x : Float} (hx : x.isFinite = true) :
      (float (if isNegative then -x else x)).Proper := by
    apply proper_float
    split
    · exact Decimal.isFinite_neg hx
    · exact hx
  unfold floatValue at hvalue
  dsimp only at hvalue
  split at hvalue
  · split at hvalue
    · rename_i hscale
      obtain rfl := Except.ok.inj hvalue
      exact hsigned (Decimal.isFinite_scale hscale)
    · cases hvalue
  · split at hvalue
    · rename_i hscale
      obtain rfl := Except.ok.inj hvalue
      exact hsigned (Decimal.isFinite_scale hscale)
    · cases hvalue
  · split at hvalue
    · cases hvalue
    · obtain rfl := Except.ok.inj hvalue
      exact hsigned rfl

theorem proper_of_readNumber {isNegative : Bool} {c after : Cursor} {value : Json}
    (hread : readNumber isNegative c = .ok (value, after)) : value.Proper := by
  unfold readNumber at hread
  obtain ⟨⟨whole, c₁⟩, -, hfraction⟩ := bind_eq_ok_iff.mp hread
  obtain ⟨⟨fraction, c₂⟩, -, hexponent⟩ := bind_eq_ok_iff.mp hfraction
  obtain ⟨⟨exponent, c₃⟩, -, hnumber⟩ := bind_eq_ok_iff.mp hexponent
  clear hread hfraction hexponent
  dsimp only at hnumber
  split at hnumber
  · rename_i hvalue
    obtain ⟨rfl, -⟩ := Prod.mk.inj (Except.ok.inj hnumber)
    exact proper_integer (isWord_of_integerValue? hvalue)
  · obtain ⟨found, hvalue, hresult⟩ := bind_eq_ok_iff.mp hnumber
    obtain ⟨rfl, -⟩ := Prod.mk.inj (Except.ok.inj hresult)
    exact proper_of_floatValue hvalue

/-! Values -/

/-- What is read with so many steps at most is proper, if what was read before was. -/
structure Reads (fuel : Nat) : Prop where
  value : ∀ {depth : Nat} {c after : Cursor} {value : Json},
    readValue fuel depth c = .ok (value, after) → value.Proper
  items : ∀ {depth : Nat} {read : List Json} {c after : Cursor} {value : Json},
    (∀ item ∈ read, item.Proper) → readItems fuel depth read c = .ok (value, after) → value.Proper
  members : ∀ {depth : Nat} {read : List (String × Json)} {c after : Cursor} {value : Json},
    (∀ member ∈ read, member.2.Proper) → readMembers fuel depth read c = .ok (value, after) →
      value.Proper

theorem proper_of_readValue_succ {fuel depth : Nat} {c after : Cursor} {value : Json}
    (ih : Reads fuel) (hread : readValue (fuel + 1) depth c = .ok (value, after)) :
    value.Proper := by
  unfold readValue at hread
  dsimp only at hread
  split at hread
  · cases hread
  · obtain ⟨c', -, hresult⟩ := map_eq_ok_iff.mp hread
    obtain ⟨rfl, -⟩ := Prod.mk.inj hresult
    exact proper_null
  · obtain ⟨c', -, hresult⟩ := map_eq_ok_iff.mp hread
    obtain ⟨rfl, -⟩ := Prod.mk.inj hresult
    exact proper_bool true
  · obtain ⟨c', -, hresult⟩ := map_eq_ok_iff.mp hread
    obtain ⟨rfl, -⟩ := Prod.mk.inj hresult
    exact proper_bool false
  · exact proper_of_readNumber hread
  · obtain ⟨⟨s, c'⟩, -, hresult⟩ := map_eq_ok_iff.mp hread
    obtain ⟨rfl, -⟩ := Prod.mk.inj hresult
    exact proper_string s
  · split at hread
    · cases hread
    · exact ih.items (by simp) hread
  · split at hread
    · cases hread
    · exact ih.members (by simp) hread
  · split at hread
    · exact proper_of_readNumber hread
    · cases hread

theorem reads (fuel : Nat) : Reads fuel := by
  induction fuel with
  | zero =>
      constructor
      · intro depth c after value hread
        cases hread
      · intro depth read c after value _ hread
        cases hread
      · intro depth read c after value _ hread
        cases hread
  | succ fuel ih =>
      constructor
      · intro depth c after value hread
        exact proper_of_readValue_succ ih hread
      · intro depth read c after value hbefore hread
        rw [readItems] at hread
        split at hread
        · cases hread
        · obtain ⟨rfl, -⟩ := Prod.mk.inj (Except.ok.inj hread)
          exact proper_array fun item hitem => hbefore item (List.mem_reverse.mp hitem)
        · split at hread
          · cases hread
          · rename_i hitem
            exact ih.items (List.forall_mem_cons.mpr ⟨ih.value hitem, hbefore⟩) hread
      · intro depth read c after value hbefore hread
        rw [readMembers] at hread
        split at hread
        · cases hread
        · obtain ⟨rfl, -⟩ := Prod.mk.inj (Except.ok.inj hread)
          exact proper_object fun member hmember => hbefore member (List.mem_reverse.mp hmember)
        · split at hread
          · cases hread
          · split at hread
            · cases hread
            · split at hread
              · cases hread
              · rename_i hvalue
                exact ih.members (List.forall_mem_cons.mpr ⟨ih.value hvalue, hbefore⟩) hread

theorem proper_of_read {text : String} {value : Json} (hread : read text = .ok value) :
    value.Proper := by
  unfold read at hread
  obtain ⟨⟨found, c⟩, hfound, hread⟩ := bind_eq_ok_iff.mp hread
  obtain ⟨-, -, hread⟩ := bind_eq_ok_iff.mp hread
  obtain rfl := Except.ok.inj hread
  exact (reads _).value hfound

end DocIndex.Json
