import Gatehouse.Proofs.Url.Host
import Gatehouse.Proofs.Url.WellFormed

/-!
# Reading back the text of a URL

The text of a well-formed URL is its front, which ends with the host or the port, and behind that
the path, the query and the fragment. When the text is read, these three are found again as they
were, and all the other parts are read of the front alone.
-/

namespace Gatehouse.Url

variable {scheme authority tail path : Bytes} {query fragment : Option Bytes} {u : Url}

/-! ## The parts of the text -/

/-- The text of a URL in front of its path. -/
def front (u : Url) : Bytes := u.scheme ++ 0x3A :: 0x2F :: 0x2F :: (u.userText ++ u.hostPort)

/-- The text of a part behind the mark that begins it. -/
def marked (mark : UInt8) (part : Option Bytes) : Bytes := (part.map (mark :: ·)).getD []

theorem forall_mem_marked {P : UInt8 → Prop} {mark : UInt8} {part : Option Bytes} (hmark : P mark)
    (hpart : ∀ p ∈ part, ∀ b ∈ p, P b) : ∀ b ∈ marked mark part, P b := by
  cases part with
  | none => exact List.forall_mem_nil _
  | some p => exact List.forall_mem_cons.mpr ⟨hmark, hpart p rfl⟩

theorem pathAndQuery_eq (u : Url) : u.pathAndQuery = u.path ++ marked 0x3F u.query := by
  rw [pathAndQuery]
  cases u.query <;> rfl

theorem WellFormed.render_eq (h : WellFormed u) :
    u.render = u.front ++ (u.pathAndQuery ++ marked 0x23 u.fragment) := by
  obtain ⟨-, host, -, hhost⟩ := h.host
  rw [render, front, hhost]
  cases u.fragment <;> simp [marked]

/-- The path, the query and the fragment are found again in their text. -/
theorem tailParts_eq (hpath : ∀ b ∈ path, b ≠ 0x23 ∧ b ≠ 0x3F) (hquery : ∀ q ∈ query, 0x23 ∉ q) :
    tailParts (path ++ marked 0x3F query ++ marked 0x23 fragment) = (path, query, fragment) := by
  have hmarked (mark : UInt8) (part : Option Bytes) :
      (marked mark part).takeWhile (!· == mark) = [] ∧
        ((marked mark part).dropWhile (!· == mark)).tail? = part := by
    cases part <;> simp [marked]
  have hhash : ∀ b ∈ path ++ marked 0x3F query, (!b == 0x23) = true := by
    rw [List.forall_mem_append]
    refine ⟨fun b hb => by simpa using (hpath b hb).1, forall_mem_marked (by decide) ?_⟩
    intro q hq b hb
    have hne : b ≠ 0x23 := fun heq => hquery q hq (heq ▸ hb)
    simpa using hne
  have hmark : ∀ b ∈ path, (!b == 0x3F) = true := fun b hb => by simpa using (hpath b hb).2
  simp only [tailParts, cut_eq, List.takeWhile_append_of_pos hhash,
    List.dropWhile_append_of_pos hhash, hmarked, List.append_nil,
    List.takeWhile_append_of_pos hmark, List.dropWhile_append_of_pos hmark]

/-! ## The front -/

theorem WellFormed.plain_authority (h : WellFormed u) :
    u.userText ++ u.hostPort ≠ [] ∧ ∀ b ∈ u.userText ++ u.hostPort, isPlain b = true := by
  have huser : ∀ b, userSet b = false → isPlain b = true := by
    grind [userSet, pathSet, fragmentSet, controlSet, isPlain, endsAuthority, isSeparator]
  obtain ⟨text, host, hread, hhost⟩ := h.host
  obtain ⟨hne, hplain⟩ := Host.plain_render hread
  have hname : ∀ b ∈ u.username, isPlain b = true := fun b hb => huser b (h.username b hb)
  have huserText : ∀ b ∈ u.userText, isPlain b = true := by
    rw [userText]
    split
    · next p hp =>
      simp only [List.forall_mem_append]
      exact ⟨⟨⟨hname, List.all_eq_true.mp (by decide)⟩,
        fun b hb => huser b (h.password p hp b hb)⟩, List.all_eq_true.mp (by decide)⟩
    · split
      · exact List.forall_mem_nil _
      · exact List.forall_mem_append.mpr ⟨hname, List.all_eq_true.mp (by decide)⟩
  have hhostPort : u.hostPort ≠ [] ∧ ∀ b ∈ u.hostPort, isPlain b = true := by
    rw [hostPort, hhost]
    refine ⟨List.append_ne_nil_of_left_ne_nil hne _, List.forall_mem_append.mpr ⟨hplain, ?_⟩⟩
    split
    · exact List.forall_mem_nil _
    · refine List.forall_mem_cons.mpr ⟨by decide, isPlain_of_mem_ofString fun c hc => ?_⟩
      rw [Nat.toString_eq_repr, Nat.toList_repr] at hc
      exact isPlainChar_of_mem_toDigits (by decide) hc
  exact ⟨List.append_ne_nil_of_right_ne_nil _ hhostPort.1,
    List.forall_mem_append.mpr ⟨huserText, hhostPort.2⟩⟩

/-- What stands behind an authority has no part in how the authority is read. -/
theorem parseAuthority_append (hweb : scheme = http ∨ scheme = https)
    (hauthority : ∀ b ∈ authority, endsAuthority true b = false)
    (htail : ∀ b ∈ tail.head?, endsAuthority true b = true) :
    parseAuthority scheme (authority ++ tail) =
      (parseAuthority scheme authority).map fun v =>
        withTail { v with path := resolve true (tailParts tail).1 } (tailParts tail).2.1
          (tailParts tail).2.2 := by
  have hback : 0x5C ∉ authority := fun hmem => absurd (hauthority _ hmem) (by decide)
  have hof : authorityOf true (authority ++ tail) = authority ∧
      behindAuthority true (authority ++ tail) = tail := by
    rw [authorityOf_append hauthority, behindAuthority_append hauthority]
    cases tail with
    | nil => exact ⟨List.append_nil _, rfl⟩
    | cons b tail =>
      have hb := htail b rfl
      rw [authorityOf_cons hb, behindAuthority_cons hb, List.append_nil]
      exact ⟨rfl, rfl⟩
  have halone : authorityOf true authority = authority ∧ behindAuthority true authority = [] := by
    have h := authorityOf_append hauthority []
    have h' := behindAuthority_append hauthority []
    rw [List.append_nil] at h h'
    rw [h, h']
    exact ⟨List.append_nil _, rfl⟩
  unfold parseAuthority
  simp only [isSpecial_of_web hweb, cut_endsAuthority, hof, halone, if_true]
  simp only [cut_eq, behindPort_eq_nil hback, List.nil_append]
  cases hhost : Host.parse (splitHost false (splitUser authority).2).1 with
  | error e => rfl
  | ok host =>
    -- An empty host is refused before anything looks at what follows it.
    have hne : (splitHost false (splitUser authority).2).1.isEmpty = false := by
      rw [Bool.eq_false_iff, ne_eq, List.isEmpty_iff]
      intro hempty
      rw [hempty] at hhost
      cases hhost
    simp only [hne, ok_bind, Bool.false_and, Bool.true_or, Bool.false_eq_true, if_false, if_true]
    cases port? ((splitHost false (splitUser authority).2).2.tail.takeWhile (!· == 0x5C)) with
    | error e => rfl
    | ok port => rfl

/-- The text of a web URL is read as its scheme and its authority with what stands behind. -/
theorem WellFormed.parse_front_append (h : WellFormed u) (htail : ∀ b ∈ tail, 0x20 < b) :
    parse (u.front ++ tail) = parseAuthority u.scheme (u.userText ++ u.hostPort ++ tail) := by
  obtain ⟨hne, hplain⟩ := h.plain_authority
  have hbytes : ∀ b, isPlain b = true → 0x20 < b ∧ isSeparator true b = false := by
    grind [isPlain, endsAuthority, isSeparator]
  have hprinted : ∀ b : UInt8, 0x20 < b → decide (b ≤ 0x20) = false ∧ isLineBreak b = false := by
    grind [isLineBreak]
  have hscheme : (∀ b ∈ u.scheme, isSchemeByte b = true ∧ 0x20 < b) ∧
      u.scheme.head?.any Bytes.isAlpha = true ∧ u.scheme.map Bytes.toLower = u.scheme := by
    rcases h.web with hweb | hweb <;> (rw [hweb]; decide +kernel)
  have htext : ∀ b ∈ u.front ++ tail, 0x20 < b := by
    simp only [front, List.forall_mem_append, List.forall_mem_cons] at hplain ⊢
    exact ⟨⟨fun b hb => (hscheme.1 b hb).2, by decide, by decide, by decide,
      fun b hb => (hbytes b (hplain.1 b hb)).1, fun b hb => (hbytes b (hplain.2 b hb)).1⟩, htail⟩
  have hkept : (Bytes.trimBy (· ≤ 0x20) (u.front ++ tail)).filter (!isLineBreak ·) =
      u.front ++ tail := by
    rw [Bytes.trimBy_eq_self, filter_isLineBreak fun b hb => (hprinted b (htext b hb)).2]
    · exact fun b hb => (hprinted b (htext b (List.mem_of_mem_head? hb))).1
    · exact fun b hb => (hprinted b (htext b (List.mem_of_mem_getLast? hb))).1
  have hsep : isSeparator true 0x2F = true := by decide
  have hskipped : (u.userText ++ u.hostPort ++ tail).dropWhile (isSeparator true) =
      u.userText ++ u.hostPort ++ tail := by
    rw [dropWhile_eq_self]
    rw [List.head?_append_of_ne_nil _ hne]
    exact fun b hb => (hbytes b (hplain b (List.mem_of_mem_head? hb))).2
  rw [parse, hkept, front, List.append_assoc, List.cons_append,
    splitScheme?_append fun b hb => (hscheme.1 b hb).1, if_pos hscheme.2.1, hscheme.2.2]
  simp only [if_neg (ne_file_of_web h.web), isSpecial_of_web h.web, if_true, List.cons_append]
  rw [List.dropWhile_cons_of_pos hsep, List.dropWhile_cons_of_pos hsep, hskipped]

/-- **A URL is read back part by part.** What is read of the text of a URL is what is read of its
front, with the path, the query and the fragment of the URL. -/
theorem WellFormed.parse_render (h : WellFormed u) :
    parse u.render = (parse u.front).map fun v =>
      { v with path := u.path, query := u.query, fragment := u.fragment } := by
  have hends : ∀ b, isPlain b = true → endsAuthority true b = false := by grind [isPlain]
  have hpathByte : ∀ b, pathSet b = false → 0x20 < b ∧ b ≠ 0x23 ∧ b ≠ 0x3F := by
    grind [pathSet, fragmentSet, controlSet]
  have hqueryByte : ∀ b, querySet true b = false → 0x20 < b ∧ b ≠ 0x23 := by
    grind [querySet, controlSet]
  have hfragmentByte : ∀ b, fragmentSet b = false → 0x20 < b := by grind [fragmentSet, controlSet]
  have hauthority : ∀ b ∈ u.userText ++ u.hostPort, endsAuthority true b = false :=
    fun b hb => hends b (h.plain_authority.2 b hb)
  have htail : ∀ b ∈ u.path ++ marked 0x3F u.query ++ marked 0x23 u.fragment, 0x20 < b := by
    simp only [List.forall_mem_append]
    exact ⟨⟨fun b hb => (hpathByte b (h.path.clean b hb).1).1,
      forall_mem_marked (by decide) fun q hq b hb => (hqueryByte b (h.query q hq b hb)).1⟩,
      forall_mem_marked (by decide) fun f hf b hb => hfragmentByte b (h.fragment f hf b hb)⟩
  have hhead : ∀ b ∈ (u.path ++ marked 0x3F u.query ++ marked 0x23 u.fragment).head?,
      endsAuthority true b = true := by
    obtain ⟨rest, hpath⟩ := List.head?_eq_some_iff.mp h.path.rooted
    rw [hpath]
    rintro b ⟨⟩
    exact endsAuthority_slash true
  have hparts : tailParts (u.path ++ marked 0x3F u.query ++ marked 0x23 u.fragment) =
      (u.path, u.query, u.fragment) :=
    tailParts_eq (fun b hb => (hpathByte b (h.path.clean b hb).1).2)
      fun q hq hmem => (hqueryByte _ (h.query q hq _ hmem)).2 rfl
  have hfront := h.parse_front_append (List.forall_mem_nil _)
  rw [List.append_nil, List.append_nil] at hfront
  rw [h.render_eq, pathAndQuery_eq, h.parse_front_append htail,
    parseAuthority_append h.web hauthority hhead, hparts, hfront]
  cases hread : parseAuthority u.scheme (u.userText ++ u.hostPort) with
  | error e => rfl
  | ok v =>
    -- What is in normal form is not encoded again.
    simp only [Except.map, Url.withTail, scheme_of_parseAuthority hread, isSpecial_of_web h.web,
      map_encode_eq_self h.query, map_encode_eq_self h.fragment, resolve_of_isNormal true h.path]

/-- With another normal path in its text, a URL is read as before but for the path. -/
theorem WellFormed.parse_render_path (h : WellFormed u) (hpath : IsNormal path) :
    parse { u with path }.render = (parse u.render).map fun v => { v with path } := by
  have hother : WellFormed { u with path } := { h with path := hpath }
  have hfront : front { u with path } = u.front := rfl
  rw [hother.parse_render, h.parse_render, hfront]
  cases parse u.front <;> rfl

end Gatehouse.Url
