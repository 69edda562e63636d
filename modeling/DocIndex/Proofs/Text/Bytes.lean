import Mathlib.Data.String.Basic

/-!
The order of texts. Texts are compared character by character, and the characters by their code
points; this is the order of their UTF-8 bytes, because a greater code point has a greater byte at
the first place where the bytes of two characters differ.
-/

namespace DocIndex.Text

def bytes (s : String) : List UInt8 :=
  s.toUTF8.data.toList

theorem bytes_eq_flatMap (s : String) : bytes s = s.toList.flatMap String.utf8EncodeChar := by
  rw [bytes, String.toUTF8_eq_toByteArray, ← String.utf8Encode_toList, List.utf8Encode]
  exact List.toList_data_toByteArray

/-- Whatever follows the bytes of two characters, those of the lesser one come first. -/
theorem encode_append_lt {a b : Char} (hlt : a < b) (after others : List UInt8) :
    String.utf8EncodeChar a ++ after < String.utf8EncodeChar b ++ others := by
  have hval : a.val.toNat < b.val.toNat := UInt32.lt_iff_toNat_lt.mp (Char.lt_def.mp hlt)
  have hbound : b.val.toNat < 1114112 := by
    rcases b.valid with hlow | ⟨-, hhigh⟩ <;> omega
  unfold String.utf8EncodeChar
  generalize a.val.toNat = v at hval
  generalize b.val.toNat = w at hval hbound
  dsimp only
  have hlong : v / 262144 % 8 = v / 262144 ∧ w / 262144 % 8 = w / 262144 := by omega
  split_ifs <;>
    simp (disch := omega) only [List.cons_append, List.nil_append, List.cons_lt_cons_iff,
      UInt8.lt_iff_toNat_lt, UInt8.toNat_ofNat', ← UInt8.toNat_inj, Nat.mod_eq_of_lt, hlong] <;>
    omega

/-- Of two texts the lesser one has the lesser bytes. -/
theorem bytes_lt {s t : String} (hlt : s < t) : bytes s < bytes t := by
  rw [bytes_eq_flatMap, bytes_eq_flatMap]
  have hchars : s.toList < t.toList := hlt
  generalize s.toList = chars at hchars
  generalize t.toList = others at hchars
  induction hchars with
  | @nil ch rest =>
      have hbytes : String.utf8EncodeChar ch ≠ [] := by
        rw [← List.length_pos_iff, String.length_utf8EncodeChar]
        exact ch.utf8Size_pos
      obtain ⟨first, tail, hfirst⟩ := List.exists_cons_of_ne_nil hbytes
      rw [List.flatMap_nil, List.flatMap_cons, hfirst]
      exact List.nil_lt_cons _ _
  | rel hless =>
      rw [List.flatMap_cons, List.flatMap_cons]
      exact encode_append_lt hless _ _
  | cons _ ih =>
      rw [List.flatMap_cons, List.flatMap_cons]
      exact List.append_left_lt ih

/-- Texts are compared as their bytes are. -/
theorem lt_iff_bytes_lt {s t : String} : s < t ↔ bytes s < bytes t := by
  constructor
  · exact bytes_lt
  · intro hbytes
    rcases lt_trichotomy s t with hlt | rfl | hgt
    · exact hlt
    · exact absurd hbytes (List.lt_irrefl _)
    · exact absurd hbytes (List.lt_asymm (bytes_lt hgt))

end DocIndex.Text
