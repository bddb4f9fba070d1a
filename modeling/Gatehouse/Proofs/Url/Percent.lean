import Gatehouse.Url.Percent
import Gatehouse.Proofs.Bytes

/-!
# What percent coding keeps

A text is its own encoding exactly when it has no byte of the set. Encoding never changes what a
text decodes to, as long as neither `%` nor the hexadecimal digits belong to the set.
-/

namespace Gatehouse.Url

open Bytes (hexDigit? upperHex)

variable {set : EncodeSet} {b c : UInt8} {bs rest : Bytes}

/-! ## Hexadecimal digits -/

/-- A byte is read back from the two digits of its escape. -/
theorem hexDigit?_halves (b : UInt8) :
    hexDigit? (upperHex (b / 16)) = some (b / 16) ∧ hexDigit? (upperHex (b % 16)) = some (b % 16) ∧
      b / 16 * 16 + b % 16 = b := by
  have hdigit : ∀ n : UInt8, n < 16 → hexDigit? (upperHex n) = some n := by
    grind [hexDigit?, upperHex]
  exact ⟨hdigit _ (by grind), hdigit _ (by grind), by grind⟩

theorem hexDigit?_percent : hexDigit? 0x25 = none := by decide

/-! ## Encoding -/

theorem encode_cons (set : EncodeSet) (b : UInt8) (bs : Bytes) :
    encode set (b :: bs) = (if set b then escape b else [b]) ++ encode set bs :=
  List.flatMap_cons

theorem encode_cons_of_neg (h : set b = false) : encode set (b :: bs) = b :: encode set bs := by
  rw [encode_cons, if_neg (by simp [h])]
  rfl

theorem encode_cons_of_pos (h : set b = true) :
    encode set (b :: bs) =
      0x25 :: upperHex (b / 16) :: upperHex (b % 16) :: encode set bs := by
  rw [encode_cons, if_pos h]
  rfl

theorem encode_eq_self (h : ∀ b ∈ bs, set b = false) : encode set bs = bs := by
  induction bs with
  | nil => rfl
  | cons b bs ih =>
    rw [encode_cons_of_neg (h b List.mem_cons_self),
      ih fun c hc => h c (List.mem_cons_of_mem _ hc)]

/-- A byte of an encoded text stands in the text itself, or in the escape of a byte of the text. -/
theorem mem_encode (h : c ∈ encode set bs) :
    (c ∈ bs ∧ set c = false) ∨ ∃ b ∈ bs, set b = true ∧ c ∈ escape b := by
  obtain ⟨b, hb, hc⟩ := List.mem_flatMap.mp h
  by_cases hset : set b = true
  · rw [if_pos hset] at hc
    exact .inr ⟨b, hb, hset, hc⟩
  · rw [if_neg hset, List.mem_singleton] at hc
    subst hc
    exact .inl ⟨hb, by simpa using hset⟩

/-- Escapes are `%` and digits. -/
theorem digit_of_mem_escape (h : c ∈ escape b) :
    c = 0x25 ∨ (0x30 ≤ c ∧ c ≤ 0x39) ∨ (0x41 ≤ c ∧ c ≤ 0x46) := by
  have hdigit : ∀ n : UInt8, n < 16 →
      (0x30 ≤ upperHex n ∧ upperHex n ≤ 0x39) ∨ (0x41 ≤ upperHex n ∧ upperHex n ≤ 0x46) := by
    grind [upperHex]
  rw [escape, List.mem_cons, List.mem_cons, List.mem_singleton] at h
  rcases h with rfl | rfl | rfl
  · exact .inl rfl
  · exact .inr (hdigit _ (by grind))
  · exact .inr (hdigit _ (by grind))

/-- Nothing of a set is left in an encoded text if neither `%` nor a digit belongs to it. -/
theorem set_of_mem_encode
    (hset : ∀ c, c = 0x25 ∨ (0x30 ≤ c ∧ c ≤ 0x39) ∨ (0x41 ≤ c ∧ c ≤ 0x46) → set c = false)
    (h : c ∈ encode set bs) : set c = false := by
  rcases mem_encode h with ⟨-, hout⟩ | ⟨b, -, -, hc⟩
  · exact hout
  · exact hset c (digit_of_mem_escape hc)

/-- A path does not have to escape what escapes are made of. -/
theorem mem_escape (h : c ∈ escape b) : pathSet c = false ∧ c ≠ 0x2F ∧ c ≠ 0x5C := by
  have hdigit := digit_of_mem_escape h
  grind [pathSet, fragmentSet, controlSet]

/-! ## Decoding -/

theorem decode_cons_of_ne (h : b ≠ 0x25) (rest : Bytes) :
    decode (b :: rest) = b :: decode rest := by
  rw [decode]
  rintro h' l tail heq -
  exact h heq

theorem decode_escape (b : UInt8) (rest : Bytes) :
    decode (0x25 :: upperHex (b / 16) :: upperHex (b % 16) :: rest) = b :: decode rest := by
  obtain ⟨hhigh, hlow, hb⟩ := hexDigit?_halves b
  rw [decode, hhigh, hlow]
  simp only [hb]

/-- Whether a text begins with two digits, so that a `%` in front of it starts an escape. -/
def startsWithDigits : Bytes → Bool
  | h :: l :: _ => (hexDigit? h).isSome && (hexDigit? l).isSome
  | _ => false

theorem decode_percent (h : startsWithDigits rest = false) :
    decode (0x25 :: rest) = 0x25 :: decode rest := by
  match rest with
  | [] => rfl
  | [_] => rfl
  | x :: y :: tail =>
    rw [decode]
    cases hx : hexDigit? x with
    | none => rfl
    | some high =>
      cases hy : hexDigit? y with
      | none => rfl
      | some low => simp [startsWithDigits, hx, hy] at h

section

variable (hpercent : set 0x25 = false) (hdigit : ∀ b v, hexDigit? b = some v → set b = false)

include hdigit in
theorem hexDigit?_of_set (h : set b = true) : hexDigit? b = none := by
  cases hb : hexDigit? b with
  | none => rfl
  | some v => rw [hdigit b v hb] at h; cases h

include hdigit in
theorem startsWithDigits_encode (bs : Bytes) :
    startsWithDigits (encode set bs) = startsWithDigits bs := by
  match bs with
  | [] => rfl
  | x :: rest =>
    by_cases hx : set x = true
    · rw [encode_cons_of_pos hx]
      cases rest <;> simp [startsWithDigits, hexDigit?_percent, hexDigit?_of_set hdigit hx]
    · rw [encode_cons_of_neg (by simpa using hx)]
      match rest with
      | [] => rfl
      | y :: tail =>
        by_cases hy : set y = true
        · rw [encode_cons_of_pos hy]
          simp [startsWithDigits, hexDigit?_percent, hexDigit?_of_set hdigit hy]
        · rw [encode_cons_of_neg (by simpa using hy)]
          rfl

include hpercent hdigit in
/-- Encoding does not change what a text decodes to. -/
theorem decode_encode (bs : Bytes) : decode (encode set bs) = decode bs := by
  fun_induction decode bs with
  | case1 => rfl
  -- An escape in the text: none of its three bytes belongs to the set.
  | case2 h l rest high low hl hh ih =>
    rw [encode_cons_of_neg hpercent, encode_cons_of_neg (hdigit h high hh),
      encode_cons_of_neg (hdigit l low hl), decode, hh, hl]
    simp only [ih]
  -- A `%` that starts no escape starts none when what follows is encoded.
  | case3 h l rest hnone ih =>
    have hstart : startsWithDigits (h :: l :: rest) = false := by
      cases hh : hexDigit? h with
      | none => simp [startsWithDigits, hh]
      | some high =>
        cases hl : hexDigit? l with
        | none => simp [startsWithDigits, hl]
        | some low => exact absurd hl (hnone high low hh)
    rw [encode_cons_of_neg hpercent, decode_percent, ih]
    rw [startsWithDigits_encode hdigit, hstart]
  | case4 b rest hb ih =>
    by_cases hset : set b = true
    · rw [encode_cons_of_pos hset, decode_escape, ih]
    · rw [encode_cons_of_neg (by simpa using hset)]
      by_cases hpct : b = 0x25
      · subst hpct
        -- A `%` at the end has at most one byte behind it.
        have hstart : startsWithDigits rest = false := by
          match rest, hb with
          | [], _ => rfl
          | [_], _ => rfl
          | x :: y :: tail, hb => exact absurd rfl (hb x y tail rfl)
        rw [decode_percent, ih]
        rw [startsWithDigits_encode hdigit, hstart]
      · rw [decode_cons_of_ne hpct, ih]

end

theorem pathSet_of_hexDigit (b v : UInt8) (h : hexDigit? b = some v) : pathSet b = false := by
  grind [hexDigit?, pathSet, fragmentSet, controlSet]

theorem decode_encode_pathSet (bs : Bytes) : decode (encode pathSet bs) = decode bs :=
  decode_encode (by decide) pathSet_of_hexDigit bs

theorem decode_eq_nil : decode bs = [] ↔ bs = [] := by
  fun_cases decode bs <;> simp

end Gatehouse.Url
