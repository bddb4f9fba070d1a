import Mathlib.Data.List.TakeDrop
import Gatehouse.Json.Writer
import Gatehouse.Proofs.Text

/-!
# The tokens of a written text

What the writer puts down for a string or for an integer is cut off as one token again, whatever
stands behind a string and where an integer is followed by a mark or by nothing. `Lexes` says that
of a text of several tokens; it is closed under marks between, in front of and behind texts.
-/

namespace Gatehouse.Json

/-! ## Strings -/

theorem hexValue?_digitChar : ∀ d < 16, hexValue? (Nat.digitChar d) = some d := by decide

/-- A control character is read back from the four digits of its escape. -/
theorem hexUnit?_control {n : Nat} (hn : n < 0x20) :
    hexUnit? '0' '0' (Nat.digitChar (n / 16)) (Nat.digitChar (n % 16)) = some n := by
  have hzero : hexValue? '0' = some 0 := rfl
  have hhigh := hexValue?_digitChar (n / 16) (by omega)
  have hlow := hexValue?_digitChar (n % 16) (by omega)
  simp only [hexUnit?, hzero, hhigh, hlow, Option.bind_eq_bind, Option.bind_some, Option.pure_def,
    Option.some.injEq]
  omega

theorem stringBody_short {e c : Char} (he : e ≠ 'u') (hc : shortEscape? e = some c)
    (rest : List Char) : stringBody ('\\' :: e :: rest) = (stringBody rest).map (consText c) := by
  rw [stringBody, hc]
  · rfl
  · intro _ _ _ _ _ h
    exact absurd h he

theorem stringBody_plain {c : Char} (hquote : c ≠ '"') (hback : c ≠ '\\') (hc : ¬c.toNat < 0x20)
    (rest : List Char) : stringBody (c :: rest) = (stringBody rest).map (consText c) := by
  rw [stringBody, if_neg hc]
  · exact hquote
  · intro _ _ _ _ _ h
    exact absurd h hback
  · intro _ _ h
    exact absurd h hback

/-- What stands for a character in a string is read as the character. -/
theorem stringBody_escape (c : Char) (rest : List Char) :
    stringBody (escape c ++ rest) = (stringBody rest).map (consText c) := by
  unfold escape
  split_ifs with hquote hback hn hr ht hb hf hcontrol
  · rw [beq_iff_eq.mp hquote]
    exact stringBody_short (by decide) rfl rest
  · rw [beq_iff_eq.mp hback]
    exact stringBody_short (by decide) rfl rest
  · rw [beq_iff_eq.mp hn]
    exact stringBody_short (by decide) rfl rest
  · rw [beq_iff_eq.mp hr]
    exact stringBody_short (by decide) rfl rest
  · rw [beq_iff_eq.mp ht]
    exact stringBody_short (by decide) rfl rest
  · rw [beq_iff_eq.mp hb]
    exact stringBody_short (by decide) rfl rest
  · rw [beq_iff_eq.mp hf]
    exact stringBody_short (by decide) rfl rest
  · have hunit : c.toNat < 0xD800 := by omega
    simp [stringBody, hexUnit?_control hcontrol, hunit]
  · exact stringBody_plain (by simpa using hquote) (by simpa using hback) hcontrol rest

theorem stringBody_text (cs rest : List Char) :
    stringBody (cs.flatMap escape ++ '"' :: rest) = some (some cs, rest) := by
  induction cs with
  | nil => simp [stringBody]
  | cons c cs ih =>
    rw [List.flatMap_cons, List.append_assoc, stringBody_escape, ih]
    rfl

/-- A string in quotes is one token. -/
theorem token_quote (s : String) (rest : List Char) :
    token (quote s ++ rest) = some (.string (some s), rest) := by
  have hbody := stringBody_text s.toList rest
  rw [quote, List.cons_append, List.append_assoc, List.singleton_append, token, hbody]
  simp

/-! ## Integers -/

/-- What may stand behind a token: a mark, or nothing. -/
def EndsToken (rest : List Char) : Prop := ∀ c ∈ rest.head?, isMark c

theorem isMark_cases {c : Char} (h : isMark c) :
    c = '[' ∨ c = ']' ∨ c = '\x7b' ∨ c = '\x7d' ∨ c = ',' ∨ c = ':' := by
  simpa [isMark, or_assoc] using h

theorem not_isDigit_of_isMark {c : Char} (h : isMark c) : c.isDigit = false := by
  rcases isMark_cases h with rfl | rfl | rfl | rfl | rfl | rfl <;> decide

/-- The numeral of an integer. -/
def Numeral.ofInt (n : Int) : Numeral := ⟨decide (n < 0), Nat.toDigits 10 n.natAbs, [], none⟩

theorem digits_append {ds rest : List Char} (hd : ∀ c ∈ ds, c.isDigit) (hr : EndsToken rest) :
    digits (ds ++ rest) = (ds, rest) := by
  have hstop : ∀ c ∈ rest.head?, c.isDigit = false := fun c hc => not_isDigit_of_isMark (hr c hc)
  rw [digits, List.span_eq_takeWhile_dropWhile, List.takeWhile_append_of_pos hd,
    List.dropWhile_append_of_pos hd, dropWhile_eq_self hstop]
  cases rest with
  | nil => simp
  | cons c rest => simp [hstop c rfl]

theorem wholePart_toDigits (n : Nat) {rest : List Char} (hr : EndsToken rest) :
    wholePart (Nat.toDigits 10 n ++ rest) = some (Nat.toDigits 10 n, rest) := by
  rcases Nat.eq_zero_or_pos n with rfl | hn
  · rw [Nat.toDigits_zero]
    rfl
  · obtain ⟨c, cs, hcs, hc⟩ := Text.toDigits_eq_cons hn
    have hdigits := digits_append (fun c => Text.isDigit_of_mem_toDigits (n := n)) hr
    rw [hcs, List.cons_append] at *
    unfold wholePart
    split
    · next heq => exact absurd (List.cons.inj heq).1 hc
    · rw [hdigits]

theorem fractionPart_of_endsToken {rest : List Char} (hr : EndsToken rest) :
    fractionPart rest = some ([], rest) := by
  unfold fractionPart
  split
  · exact absurd (hr '.' rfl) (by decide)
  · rfl

theorem exponentPart_of_endsToken {rest : List Char} (hr : EndsToken rest) :
    exponentPart rest = some (none, rest) := by
  cases rest with
  | nil => rfl
  | cons c rest =>
    have hletter : (c == 'e' || c == 'E') = false := by
      rcases isMark_cases (hr c rfl) with rfl | rfl | rfl | rfl | rfl | rfl <;> rfl
    simp [exponentPart, hletter]

theorem toList_toString_int (n : Int) : (toString n).toList =
    if n < 0 then '-' :: Nat.toDigits 10 n.natAbs else Nat.toDigits 10 n.natAbs := by
  cases n with
  | ofNat m =>
    rw [if_neg (by simp), Int.toString_eq_repr, Int.repr, Nat.toList_repr]
    rfl
  | negSucc m =>
    rw [if_pos (Int.negSucc_lt_zero m), Int.toString_eq_repr, Int.repr, String.toList_append,
      Nat.toList_repr]
    rfl

/-- Without a sign in front, reading starts with the whole part. -/
theorem numeral_of_ne_minus {c : Char} {cs whole rest : List Char} (hc : c ≠ '-')
    (hwhole : wholePart (c :: cs) = some (whole, rest)) (hr : EndsToken rest) :
    numeral (c :: cs) = some (⟨false, whole, [], none⟩, rest) := by
  unfold numeral
  split
  next negative text hsign =>
    split at hsign
    · next heq => exact absurd (List.cons.inj heq).1 hc
    · obtain ⟨rfl, rfl⟩ := Prod.mk.inj hsign
      simp [hwhole, fractionPart_of_endsToken hr, exponentPart_of_endsToken hr]

/-- An integer is read as its numeral. -/
theorem numeral_toString (n : Int) {rest : List Char} (hr : EndsToken rest) :
    numeral ((toString n).toList ++ rest) = some (.ofInt n, rest) := by
  have hwhole := wholePart_toDigits n.natAbs hr
  rw [toList_toString_int]
  by_cases hneg : n < 0
  · simp [numeral, hneg, hwhole, fractionPart_of_endsToken hr, exponentPart_of_endsToken hr,
      Numeral.ofInt]
  · obtain ⟨c, cs, hcs⟩ :=
      List.exists_cons_of_ne_nil (Nat.toDigits_ne_nil (n := n.natAbs) (b := 10))
    have hdigit : c.isDigit :=
      Text.isDigit_of_mem_toDigits (n := n.natAbs) (hcs ▸ List.mem_cons_self)
    have hminus : c ≠ '-' := by
      rintro rfl
      exact absurd hdigit (by decide)
    rw [hcs, List.cons_append] at hwhole
    rw [if_neg hneg, hcs, List.cons_append, numeral_of_ne_minus hminus hwhole hr]
    simp [Numeral.ofInt, hneg, hcs]

theorem natOfDigits_toDigits (n : Nat) : natOfDigits (Nat.toDigits 10 n) = n :=
  Text.foldl_toDigits n

/-- Whether an integer fits a signed or an unsigned word of 64 bits. -/
def FitsWord (n : Int) : Prop := -Int.pow 2 63 ≤ n ∧ n < Int.pow 2 64

/-- The numeral of an integer that fits a word means the integer. -/
theorem toNumber?_ofInt {n : Int} (hn : FitsWord n) : (Numeral.ofInt n).toNumber? = some (.int n) := by
  have hvalue := natOfDigits_toDigits n.natAbs
  have hlow : -9223372036854775808 ≤ n := hn.1
  have hhigh : n < 18446744073709551616 := hn.2
  unfold Numeral.ofInt Numeral.toNumber?
  simp only [hvalue, decide_eq_true_eq]
  by_cases hneg : n < 0
  · have hfits : 0 < n.natAbs ∧ n.natAbs ≤ Nat.pow 2 63 := by
      change 0 < n.natAbs ∧ n.natAbs ≤ 9223372036854775808
      omega
    rw [if_pos hneg, if_pos hfits]
    congr 2
    omega
  · have hfits : n.natAbs < Nat.pow 2 64 := by
      change n.natAbs < 18446744073709551616
      omega
    rw [if_neg hneg, if_pos hfits]
    congr 2
    omega

/-- The text of an integer begins with a sign or a digit. -/
theorem toList_toString_eq_cons (n : Int) :
    ∃ c cs, (toString n).toList = c :: cs ∧ (c = '-' ∨ c.isDigit) := by
  rw [toList_toString_int]
  split
  · exact ⟨'-', Nat.toDigits 10 n.natAbs, rfl, .inl rfl⟩
  · obtain ⟨c, cs, hcs⟩ :=
      List.exists_cons_of_ne_nil (Nat.toDigits_ne_nil (n := n.natAbs) (b := 10))
    exact ⟨c, cs, hcs, .inr (Text.isDigit_of_mem_toDigits (n := n.natAbs)
      (hcs ▸ List.mem_cons_self))⟩

theorem ne_of_sign_or_digit {c x : Char} (hc : c = '-' ∨ c.isDigit) (hsign : x ≠ '-')
    (hdigit : x.isDigit = false) : c ≠ x := by
  rintro rfl
  rcases hc with hc | hc
  · exact hsign hc
  · rw [hdigit] at hc
    cases hc

/-- What begins with a sign or a digit is read as a number. -/
theorem token_of_numeral {c : Char} {cs rest : List Char} {n : Numeral}
    (hc : c = '-' ∨ c.isDigit) (h : numeral (c :: cs) = some (n, rest)) :
    token (c :: cs) = some (.number n, rest) := by
  have hother {x : Char} := ne_of_sign_or_digit (x := x) hc
  have hmark : isMark c = false := by
    by_contra hmark
    rcases isMark_cases (by simpa using hmark) with rfl | rfl | rfl | rfl | rfl | rfl <;>
      exact hother (by decide) (by decide) rfl
  unfold token
  split
  · next heq => exact absurd (List.cons.inj heq).1 (hother (by decide) (by decide))
  · next heq => exact absurd (List.cons.inj heq).1 (hother (by decide) (by decide))
  · next heq => exact absurd (List.cons.inj heq).1 (hother (by decide) (by decide))
  · next heq => exact absurd (List.cons.inj heq).1 (hother (by decide) (by decide))
  · next heq =>
    obtain ⟨rfl, rfl⟩ := List.cons.inj heq
    simp [hmark, h]
  · next heq => cases heq

/-- A mark is read as itself. -/
theorem token_mark {c : Char} (hc : isMark c) (rest : List Char) :
    token (c :: rest) = some (.mark c, rest) := by
  rcases isMark_cases hc with rfl | rfl | rfl | rfl | rfl | rfl <;> rfl

/-! ## Texts of several tokens -/

/-- One token is cut off with one unit of fuel. -/
theorem tokensFrom_cons {c : Char} {cs rest : List Char} {t : Token} (hc : isBlank c = false)
    (h : token (c :: cs) = some (t, rest)) (fuel : Nat) :
    tokensFrom (fuel + 1) (c :: cs) = (tokensFrom fuel rest).map (t :: ·) := by
  rw [tokensFrom, if_neg (by simp [hc]), h]
  cases hrest : tokensFrom fuel rest <;> simp [hrest]

/-- Fuel that suffices is not missed where there is more of it. -/
theorem tokensFrom_mono {fuel more : Nat} {text : List Char} {tokens : List Token}
    (h : tokensFrom fuel text = some tokens) (hle : fuel ≤ more) :
    tokensFrom more text = some tokens := by
  induction fuel generalizing more text tokens with
  | zero =>
    cases text with
    | nil => simpa [tokensFrom] using h
    | cons c cs => simp [tokensFrom] at h
  | succ fuel ih =>
    cases text with
    | nil => simpa [tokensFrom] using h
    | cons c cs =>
      obtain ⟨more, rfl⟩ : ∃ k, more = k + 1 := ⟨more - 1, by omega⟩
      have hle' : fuel ≤ more := Nat.le_of_succ_le_succ hle
      by_cases hblank : isBlank c
      · rw [tokensFrom, if_pos hblank] at h ⊢
        exact ih h hle'
      · have hc : isBlank c = false := by simpa using hblank
        cases htoken : token (c :: cs) with
        | none => simp [tokensFrom, hc, htoken] at h
        | some cut =>
          obtain ⟨t, rest⟩ := cut
          rw [tokensFrom_cons hc htoken] at h ⊢
          obtain ⟨ts, hts, rfl⟩ := Option.map_eq_some_iff.mp h
          rw [ih hts hle', Option.map_some]

/-- A text that is cut into tokens, with one unit of fuel for each, where a mark or nothing
follows. -/
structure Lexes (text : List Char) (tokens : List Token) : Prop where
  length_le : tokens.length ≤ text.length
  tokensFrom_append : ∀ (fuel : Nat) (rest : List Char), EndsToken rest →
    tokensFrom (tokens.length + fuel) (text ++ rest) = (tokensFrom fuel rest).map (tokens ++ ·)

theorem lexes_nil : Lexes [] [] := by
  refine ⟨Nat.le_refl 0, fun fuel rest _ => ?_⟩
  simp

/-- A token behind no blank makes a text of one token. -/
theorem lexes_token {c : Char} {cs : List Char} {t : Token} (hc : isBlank c = false)
    (h : ∀ rest, EndsToken rest → token (c :: cs ++ rest) = some (t, rest)) :
    Lexes (c :: cs) [t] := by
  refine ⟨by simp, fun fuel rest hr => ?_⟩
  have htoken := h rest hr
  rw [List.cons_append] at htoken ⊢
  rw [List.length_singleton, Nat.add_comm, tokensFrom_cons hc htoken]
  rfl

namespace Lexes

variable {text text' : List Char} {tokens tokens' : List Token}

/-- A mark may stand in front of a text. -/
theorem mark_cons {c : Char} (hc : isMark c) (h : Lexes text tokens) :
    Lexes (c :: text) (.mark c :: tokens) := by
  have hblank : isBlank c = false := by
    rcases isMark_cases hc with rfl | rfl | rfl | rfl | rfl | rfl <;> rfl
  refine ⟨Nat.succ_le_succ h.length_le, fun fuel rest hr => ?_⟩
  rw [List.length_cons, Nat.add_right_comm, List.cons_append,
    tokensFrom_cons hblank (token_mark hc (text ++ rest)), h.tokensFrom_append fuel rest hr,
    Option.map_map]
  rfl

/-- Behind a text there may be one that begins with a mark. -/
theorem append (h : Lexes text tokens) (h' : Lexes text' tokens') (hmark : EndsToken text') :
    Lexes (text ++ text') (tokens ++ tokens') := by
  have hlength := h.length_le
  have hlength' := h'.length_le
  refine ⟨by simp only [List.length_append]; omega, fun fuel rest hr => ?_⟩
  have hboth : EndsToken (text' ++ rest) := by
    intro c hc
    rw [List.head?_append] at hc
    cases htext : text'.head? with
    | none => exact hr c (by simpa [htext] using hc)
    | some x => exact hmark c (by simpa [htext] using hc)
  rw [List.length_append, Nat.add_assoc, List.append_assoc, h.tokensFrom_append _ _ hboth,
    h'.tokensFrom_append _ _ hr, Option.map_map]
  congr 1
  funext ts
  simp

/-- Two texts with a mark between them. -/
theorem append_mark {c : Char} (hc : isMark c) (h : Lexes text tokens)
    (h' : Lexes text' tokens') : Lexes (text ++ c :: text') (tokens ++ .mark c :: tokens') := by
  refine h.append (h'.mark_cons hc) ?_
  rintro _ ⟨⟩
  exact hc

/-- A text is cut into its tokens. -/
theorem tokens?_eq (h : Lexes text tokens) : tokens? text = some tokens := by
  have hall := h.tokensFrom_append 0 [] (by simp [EndsToken])
  rw [List.append_nil, Nat.add_zero] at hall
  exact tokensFrom_mono (by simpa [tokensFrom] using hall) h.length_le

end Lexes

theorem joinCommas_eq_intercalate (texts : List (List Char)) :
    joinCommas texts = [','].intercalate texts := by
  induction texts with
  | nil => rfl
  | cons x rest ih =>
    cases rest with
    | nil => simp [joinCommas]
    | cons y rest =>
      rw [joinCommas, ih, List.intercalate_cons_of_ne_nil (List.cons_ne_nil y rest)]
      · simp
      · exact List.cons_ne_nil y rest

/-- Texts with commas between each two. -/
theorem lexes_joinCommas {texts : List (List Char)} {tokens : List (List Token)}
    (h : List.Forall₂ Lexes texts tokens) :
    Lexes (joinCommas texts) ([.mark ','].intercalate tokens) := by
  rw [joinCommas_eq_intercalate]
  induction h with
  | nil => exact lexes_nil
  | @cons text ts texts tokens hfirst hrest ih =>
    cases hrest with
    | nil => simpa using hfirst
    | cons hnext hmore =>
      rw [List.intercalate_cons_cons, List.intercalate_cons_cons, List.append_assoc,
        List.append_assoc]
      exact hfirst.append_mark (by decide) ih

theorem lexes_quote (s : String) : Lexes (quote s) [.string (some s)] :=
  lexes_token (by decide) fun rest _ => token_quote s rest

theorem lexes_toString (n : Int) : Lexes (toString n).toList [.number (.ofInt n)] := by
  obtain ⟨c, cs, hcs, hc⟩ := toList_toString_eq_cons n
  have hother {x : Char} := ne_of_sign_or_digit (x := x) hc
  have hblank : isBlank c = false := by
    simp only [isBlank, Bool.or_eq_false_iff, beq_eq_false_iff_ne]
    exact ⟨⟨⟨hother (by decide) (by decide), hother (by decide) (by decide)⟩,
      hother (by decide) (by decide)⟩, hother (by decide) (by decide)⟩
  rw [hcs]
  refine lexes_token hblank fun rest hr => ?_
  have hnumeral := numeral_toString n hr
  rw [hcs] at hnumeral
  exact token_of_numeral hc hnumeral

end Gatehouse.Json
