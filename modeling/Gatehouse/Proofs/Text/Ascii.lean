import Mathlib.Data.List.Basic
import Gatehouse.Text.Utf8

/-!
# ASCII text in bytes

An ASCII character is one byte of the same number. So an ASCII text has a byte for each character,
and is read back from its bytes as it was.
-/

namespace Gatehouse

variable {c : Char} {cs : List Char} {s : String}

theorem utf8EncodeChar_ascii (hc : c.toNat < 128) : String.utf8EncodeChar c = [Bytes.ofChar c] := by
  have hle : c.val.toNat ≤ 127 := Nat.le_of_lt_succ hc
  rw [String.utf8EncodeChar, if_pos hle]
  rfl

namespace Bytes

theorem toNat_ofChar (hc : c.toNat < 128) : (ofChar c).toNat = c.toNat :=
  Nat.mod_eq_of_lt (Nat.lt_trans hc (by decide))

theorem ofString_append (s t : String) : ofString (s ++ t) = ofString s ++ ofString t := by
  simp [ofString]

theorem ofString_ascii (hs : ∀ c ∈ s.toList, c.toNat < 128) : ofString s = s.toList.map ofChar := by
  rw [ofString, List.map_eq_flatMap]
  exact List.flatMap_congr fun c hc => utf8EncodeChar_ascii (hs c hc)

/-- The byte of a character is in a text only if the character is. -/
theorem ofChar_not_mem_ofString (hs : ∀ d ∈ s.toList, d.toNat < 128) (hc : c.toNat < 128)
    (hmem : c ∉ s.toList) : ofChar c ∉ ofString s := by
  rw [ofString_ascii hs, List.mem_map]
  rintro ⟨d, hd, heq⟩
  have hsame : d = c := by
    rw [← Char.toNat_inj, ← toNat_ofChar (hs d hd), heq, toNat_ofChar hc]
  exact hmem (hsame ▸ hd)

theorem toNat_of_isDigit (hc : c.isDigit = true) : 48 ≤ c.toNat ∧ c.toNat ≤ 57 := by
  simpa [Char.isDigit, UInt32.le_iff_toNat_le] using hc

theorem lt_of_digits (hs : ∀ c ∈ s.toList, c.isDigit = true) : ∀ c ∈ s.toList, c.toNat < 128 :=
  fun c hc => Nat.lt_of_le_of_lt (toNat_of_isDigit (hs c hc)).2 (by decide)

theorem all_isDigit_ofString (hs : ∀ c ∈ s.toList, c.isDigit = true) :
    (ofString s).all isDigit = true := by
  have hascii := lt_of_digits hs
  rw [ofString_ascii hascii, List.all_map, List.all_eq_true]
  intro c hc
  obtain ⟨hlow, hhigh⟩ := toNat_of_isDigit (hs c hc)
  simp [isDigit, UInt8.le_iff_toNat_le, toNat_ofChar (hascii c hc), hlow, hhigh]

end Bytes

namespace Utf8

theorem characters_ascii (hcs : ∀ c ∈ cs, c.toNat < 128) :
    characters (cs.map Bytes.ofChar) = cs.map some := by
  induction cs with
  | nil => rw [List.map_nil, characters, List.map_nil]
  | cons c cs ih =>
    rw [List.forall_mem_cons] at hcs
    have hlow : Bytes.ofChar c < 0x80 := by
      rw [UInt8.lt_iff_toNat_lt, Bytes.toNat_ofChar hcs.1]
      exact hcs.1
    have hnext : next (Bytes.ofChar c) (cs.map Bytes.ofChar) = (some c, cs.map Bytes.ofChar) := by
      rw [next, if_pos hlow, Bytes.toNat_ofChar hcs.1, Char.ofNat_toNat]
    rw [List.map_cons, characters, hnext, ih hcs.2, List.map_cons]

theorem toList_decodeLossy (hs : ∀ c ∈ s.toList, c.toNat < 128) :
    (decodeLossy (Bytes.ofString s)).toList = s.toList := by
  rw [decodeLossy, Bytes.ofString_ascii hs, characters_ascii hs]
  simp [Function.comp_def]

end Utf8

end Gatehouse
