import Gatehouse.Proofs.Text.Ascii
import Gatehouse.Proofs.Url.Reading

/-!
# The text of a host

Whatever is read as the host of a special URL, its text is not empty and keeps to itself: no byte of
it ends an authority or counts as a blank, so what stands behind a host in the text of a URL is never
taken for a part of it.
-/

namespace Gatehouse.Url

open Bytes (ofChar)

variable {c : Char} {cs label out : List Char} {text name : Bytes} {host : Host}

/-- Whether a byte is printable, no blank, and does not end an authority. -/
def isPlain (b : UInt8) : Bool := 0x20 < b && b < 0x7F && !endsAuthority true b

/-- Whether a character is one of ASCII whose byte is plain. -/
def isPlainChar (c : Char) : Bool := c.toNat < 0x80 && isPlain (ofChar c)

/-! ## Pieces -/

theorem mem_of_mem_splitOn {sep : Char} {piece : List Char} (hpiece : piece ∈ Text.splitOn sep cs)
    (hc : c ∈ piece) : c ∈ cs := by
  induction cs generalizing piece with
  | nil =>
    rw [List.mem_singleton.mp hpiece] at hc
    cases hc
  | cons d cs ih =>
    rw [Text.splitOn] at hpiece
    split at hpiece
    · rcases List.mem_cons.mp hpiece with rfl | hpiece
      · cases hc
      · exact List.mem_cons_of_mem _ (ih hpiece hc)
    · split at hpiece
      · rw [List.mem_singleton.mp hpiece, List.mem_singleton] at hc
        exact hc ▸ List.mem_cons_self
      · next first rest hsplit =>
        rw [hsplit] at ih
        rcases List.mem_cons.mp hpiece with rfl | hpiece
        · rcases List.mem_cons.mp hc with rfl | hc
          · exact List.mem_cons_self
          · exact List.mem_cons_of_mem _ (ih List.mem_cons_self hc)
        · exact List.mem_cons_of_mem _ (ih (List.mem_cons_of_mem _ hpiece) hc)

theorem exists_of_mem_mapM {α β : Type} {f : α → Option β} {as : List α} {bs : List β}
    (h : as.mapM f = some bs) : ∀ b ∈ bs, ∃ a ∈ as, f a = some b := by
  induction as generalizing bs with
  | nil =>
    cases h
    exact List.forall_mem_nil _
  | cons a as ih =>
    rw [List.mapM_cons] at h
    obtain ⟨b, hb, h⟩ := Option.bind_eq_some_iff.mp h
    obtain ⟨rest, hrest, h⟩ := Option.bind_eq_some_iff.mp h
    cases h
    refine List.forall_mem_cons.mpr ⟨⟨a, List.mem_cons_self, hb⟩, fun b hb => ?_⟩
    obtain ⟨a', ha', hf⟩ := ih hrest b hb
    exact ⟨a', List.mem_cons_of_mem _ ha', hf⟩

/-! ## Plain characters -/

theorem isPlainChar_of_not_isForbidden (hascii : c.toNat < 0x80) (h : isForbidden c = false) :
    isPlainChar c = true := by
  have hall : ∀ n : Fin 128, isForbidden (Char.ofNat n) = false → isPlainChar (Char.ofNat n) = true :=
    by decide +kernel
  have hc := hall ⟨c.toNat, hascii⟩
  rw [Char.ofNat_toNat] at hc
  exact hc h

theorem isPlainChar_digitChar (n : Nat) : isPlainChar n.digitChar = true := by
  by_cases hn : n < 16
  · have hall : ∀ n : Fin 16, isPlainChar (Nat.digitChar n) = true := by decide
    exact hall ⟨n, hn⟩
  · rw [Nat.digitChar_eq_star.mpr (Nat.le_of_not_lt hn)]
    decide

theorem isPlainChar_of_mem_toDigits {base n : Nat} (hbase : 1 < base)
    (h : c ∈ Nat.toDigits base n) : isPlainChar c = true := by
  obtain ⟨d, rfl⟩ := Text.exists_digitChar_of_mem_toDigits hbase h
  exact isPlainChar_digitChar d

theorem isPlain_of_mem_ofString {s : String} (hs : ∀ c ∈ s.toList, isPlainChar c = true) :
    ∀ b ∈ Bytes.ofString s, isPlain b = true := by
  have hsplit : ∀ c ∈ s.toList, c.toNat < 128 ∧ isPlain (ofChar c) = true :=
    fun c hc => by simpa [isPlainChar] using hs c hc
  rw [Bytes.ofString_ascii fun c hc => (hsplit c hc).1]
  intro b hb
  obtain ⟨c, hc, rfl⟩ := List.mem_map.mp hb
  exact (hsplit c hc).2

/-! ## Names -/

namespace Punycode

theorem isPlainChar_digit {n : Nat} (hn : n < 36) : isPlainChar (digit n) = true := by
  have hall : ∀ n : Fin 36, isPlainChar (digit n) = true := by decide
  exact hall ⟨n, hn⟩

theorem isPlainChar_of_mem_digits {q k bias fuel : Nat} (h : c ∈ digits q k bias fuel) :
    isPlainChar c = true := by
  induction fuel generalizing q k with
  | zero => cases h
  | succ fuel ih =>
    have ht : 1 ≤ threshold k bias ∧ threshold k bias ≤ 26 := by
      unfold threshold
      omega
    rw [digits] at h
    split at h
    · rw [List.mem_singleton.mp h]
      exact isPlainChar_digit (by omega)
    · rcases List.mem_cons.mp h with rfl | h
      · have hmod := Nat.mod_lt (q - threshold k bias)
          (show 0 < base - threshold k bias by unfold base; omega)
        refine isPlainChar_digit ?_
        unfold base at hmod ⊢
        omega
      · exact ih h

theorem isPlainChar_of_mem_place {n : Nat} {s : State} :
    c ∈ (place n s label).2 → isPlainChar c = true := by
  fun_induction place n s label with
  | case1 s => nofun
  | case2 s d cs hlt ih => exact ih
  | case3 s d cs hlt heq next s' out hplace ih =>
    intro h
    rcases List.mem_append.mp h with h | h
    · exact isPlainChar_of_mem_digits h
    · rw [hplace] at ih
      exact ih h
  | case4 s d cs hlt hne ih => exact ih

theorem isPlainChar_of_mem_placeAll {n : Nat} {s : State} {points : List Nat} :
    c ∈ placeAll label n s points → isPlainChar c = true := by
  fun_induction placeAll label n s points with
  | case1 n s => nofun
  | case2 n s m points s' out hplace ih =>
    intro h
    rcases List.mem_append.mp h with h | h
    · have hout : (place m _ label).2 = out := congrArg Prod.snd hplace
      exact isPlainChar_of_mem_place (hout ▸ h)
    · exact ih h

/-- An encoded label has the letters of ASCII that the label has, hyphens and digits. -/
theorem isPlainChar_of_mem_encode (hlabel : ∀ c ∈ label, isForbidden c = false)
    (h : c ∈ encode label) : isPlainChar c = true := by
  rw [encode] at h
  rcases List.mem_append.mp h with h | h
  · split at h
    · cases h
    · rcases List.mem_append.mp h with h | h
      · obtain ⟨hmem, hascii⟩ := List.mem_filter.mp h
        exact isPlainChar_of_not_isForbidden (of_decide_eq_true hascii) (hlabel c hmem)
      · rw [List.mem_singleton.mp h]
        decide
  · exact isPlainChar_of_mem_placeAll h

end Punycode

/-- Of a label, the form in ASCII has plain characters only. -/
theorem isPlainChar_of_mem_asciiLabel? (hlabel : ∀ c ∈ label, isForbidden c = false)
    (h : asciiLabel? label = some out) : ∀ c ∈ out, isPlainChar c = true := by
  unfold asciiLabel? at h
  split at h
  · next hascii =>
    have hout : out = label := by
      split at h
      · cases h
        rfl
      · obtain ⟨letters, -, h⟩ := Option.bind_eq_some_iff.mp h
        split at h
        · cases h
          rfl
        · cases h
    rw [hout]
    intro c hc
    exact isPlainChar_of_not_isForbidden (by simpa using List.all_eq_true.mp hascii c hc)
      (hlabel c hc)
  · cases h
    have hmark : ∀ c ∈ "xn--".toList, isPlainChar c = true := List.all_eq_true.mp (by decide)
    intro c hc
    rcases List.mem_append.mp hc with hc | hc
    · exact hmark c hc
    · exact Punycode.isPlainChar_of_mem_encode hlabel hc

theorem isPlain_of_mem_asciiName? {bs : Bytes} (h : asciiName? bs = some name) :
    ∀ b ∈ name, isPlain b = true := by
  unfold asciiName? at h
  obtain ⟨text, -, h⟩ := Option.bind_eq_some_iff.mp h
  dsimp only at h
  split at h
  · cases h
  · next hforbidden =>
    obtain ⟨labels, hlabels, h⟩ := Option.bind_eq_some_iff.mp h
    cases h
    intro b hb
    obtain ⟨c, hc, rfl⟩ := List.mem_map.mp hb
    have hplain : ∀ c ∈ ['.'].intercalate labels, isPlainChar c = true := by
      refine (forall_mem_intercalate (List.all_eq_true.mp (by decide))).mpr ?_
      intro label hlabel
      obtain ⟨piece, hpiece, hascii⟩ := exists_of_mem_mapM hlabels label hlabel
      refine isPlainChar_of_mem_asciiLabel? (fun c hc => ?_) hascii
      rw [Bool.eq_false_iff]
      exact fun hc' => hforbidden (List.any_eq_true.mpr ⟨c, mem_of_mem_splitOn hpiece hc, hc'⟩)
    exact (Bool.and_eq_true_iff.mp (hplain c hc)).2

/-! ## Addresses -/

theorem isPlain_of_mem_renderV4 {bytes : List UInt8} :
    ∀ b ∈ Bytes.ofString (Net.renderV4 bytes), isPlain b = true := by
  refine isPlain_of_mem_ofString ?_
  rw [Net.renderV4, String.toList_intercalate]
  refine (forall_mem_intercalate (List.all_eq_true.mp (by decide))).mpr ?_
  simp only [List.map_map, List.mem_map, Function.comp_apply]
  rintro _ ⟨b, -, rfl⟩ c hc
  rw [Nat.toString_eq_repr, Nat.toList_repr] at hc
  exact isPlainChar_of_mem_toDigits (by decide) hc

theorem isPlain_of_mem_renderV6 {groups : List UInt16} :
    ∀ b ∈ Bytes.ofString (Net.renderV6 groups), isPlain b = true := by
  have hjoin (gs : List UInt16) : ∀ c ∈ (":".intercalate (gs.map Net.renderGroup)).toList,
      isPlainChar c = true := by
    rw [String.toList_intercalate]
    refine (forall_mem_intercalate (List.all_eq_true.mp (by decide))).mpr ?_
    simp only [List.map_map, List.mem_map, Function.comp_apply]
    rintro _ ⟨g, -, rfl⟩ c hc
    rw [Net.renderGroup, String.toList_ofList] at hc
    exact isPlainChar_of_mem_toDigits (by decide) hc
  refine isPlain_of_mem_ofString ?_
  rw [Net.renderV6]
  dsimp only
  split
  · exact hjoin groups
  · simp only [String.toList_append, List.forall_mem_append]
    exact ⟨⟨hjoin _, List.all_eq_true.mp (by decide)⟩, hjoin _⟩

theorem ne_nil_of_ipv4? {bytes : List UInt8} (h : ipv4? name = some bytes) : bytes ≠ [] := by
  unfold ipv4? at h
  obtain ⟨numbers, -, h⟩ := Option.bind_eq_some_iff.mp h
  obtain ⟨last, -, h⟩ := Option.bind_eq_some_iff.mp h
  dsimp only at h
  split at h
  · next hfront =>
    cases h
    intro hempty
    have hlength := congrArg List.length (List.append_eq_nil_iff.mp hempty).2
    rw [List.length_map, List.length_range, List.length_nil] at hlength
    omega
  · cases h

theorem renderV4_ne_nil {bytes : List UInt8} (h : bytes ≠ []) :
    Bytes.ofString (Net.renderV4 bytes) ≠ [] := by
  have hnumber (n : Nat) : Bytes.ofString (toString n) ≠ [] := by
    have hdigits : ∀ c ∈ (toString n).toList, c.isDigit = true := by
      rw [Nat.toString_eq_repr, Nat.toList_repr]
      exact fun c => Text.isDigit_of_mem_toDigits
    rw [Bytes.ofString_ascii (Bytes.lt_of_digits hdigits), Ne, List.map_eq_nil_iff,
      Nat.toString_eq_repr, Nat.toList_repr]
    exact Nat.toDigits_ne_nil
  obtain ⟨first, bytes, rfl⟩ := List.exists_cons_of_ne_nil h
  rw [Net.renderV4, List.map_cons]
  cases bytes with
  | nil =>
    rw [List.map_nil, String.intercalate_singleton]
    exact hnumber first.toNat
  | cons second bytes =>
    rw [List.map_cons, String.intercalate_cons_cons, Bytes.ofString_append, Bytes.ofString_append,
      List.append_assoc]
    exact List.append_ne_nil_of_left_ne_nil (hnumber first.toNat) _

/-! ## Hosts -/

/-- The text of a host that is read is there, and all its bytes are plain. -/
theorem Host.plain_render (h : Host.parse text = .ok host) :
    host.render ≠ [] ∧ ∀ b ∈ host.render, isPlain b = true := by
  unfold Host.parse at h
  split at h
  · cases h
  split at h
  · split at h
    · next hbracketed =>
      cases h
      unfold bracketed? at hbracketed
      split at hbracketed
      · split at hbracketed
        · obtain ⟨groups, -, rfl⟩ := Option.map_eq_some_iff.mp hbracketed
          refine ⟨by simp [render], ?_⟩
          simp only [render, List.forall_mem_append]
          exact ⟨⟨List.all_eq_true.mp (by decide), isPlain_of_mem_renderV6⟩,
            List.all_eq_true.mp (by decide)⟩
        · cases hbracketed
      · cases hbracketed
    · cases h
  · split at h
    · cases h
    · cases h
    · next name hempty hname =>
      split at h
      · split at h
        · next bytes hbytes =>
          cases h
          exact ⟨renderV4_ne_nil (ne_nil_of_ipv4? hbytes), isPlain_of_mem_renderV4⟩
        · cases h
      · cases h
        exact ⟨hempty, isPlain_of_mem_asciiName? hname⟩

end Gatehouse.Url
