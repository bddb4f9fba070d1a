import Mathlib.Data.List.Basic
import Gatehouse.Exchange.Message
import Gatehouse.Proofs.Http.Target
import Gatehouse.Proofs.Url.Reading

/-!
# The URL of a request

`Request.ofHead` reads a text made of a scheme, an authority and a target. `path_of_ofHead` says
which path is read there: nothing but tabs of a host is lost on the way, and of a well-formed target
a lone star goes to the authority while any other path is found again behind it.
-/

namespace Gatehouse

open Url (readPath pathText behindAuthority endsAuthority isLineBreak)

variable {head : Http.RequestHead} {source : Source} {remote : Option Net.Endpoint}
  {request : Request} {t : Http.Target}

/-! ## The text -/

namespace Request

/-- The scheme of the URL of a request. -/
def schemeText (head : Http.RequestHead) : Bytes := head.target.scheme.getD Url.http

/-- The authority of the URL of a request. -/
def authorityText (head : Http.RequestHead) : Bytes :=
  (head.target.authority <|> head.headers.firstText? Http.host).getD (Bytes.ofString "localhost")

/-- What the URL of a request holds behind `://`, without the tabs of a host. -/
def behindScheme (head : Http.RequestHead) : Bytes :=
  (authorityText head ++ head.target.pathAndQuery).filter (!isLineBreak ·)

theorem urlText_eq (head : Http.RequestHead) :
    urlText head = schemeText head ++ 0x3A :: 0x2F :: 0x2F ::
      (authorityText head ++ head.target.pathAndQuery) := by
  simp only [urlText, schemeText, authorityText, List.append_assoc]
  rfl

end Request

theorem isSchemeByte_schemeText (h : head.target.WellFormed) :
    ∀ b ∈ Request.schemeText head, Url.isSchemeByte b = true := by
  rw [Request.schemeText]
  cases hscheme : head.target.scheme with
  | none => exact List.all_eq_true.mp (by decide)
  | some s => exact h.scheme s hscheme

/-- Only tabs and line ends are taken out of the URL of a well-formed request. -/
theorem filter_urlText (h : head.target.WellFormed) :
    (Bytes.trimBy (· ≤ 0x20) (Request.urlText head)).filter (!isLineBreak ·) =
      Request.schemeText head ++ 0x3A :: 0x2F :: 0x2F :: Request.behindScheme head := by
  have hvisible : ∀ b, Url.isSchemeByte b = true → decide (b ≤ 0x20) = false ∧ !isLineBreak b := by
    grind [Url.isSchemeByte, isLineBreak, Bytes.isAlpha, Bytes.isDigit]
  have hscheme := isSchemeByte_schemeText h
  -- The text begins with a scheme or a colon and ends with a target, so there is nothing to trim.
  rw [Bytes.trimBy_eq_self, Request.urlText_eq, Request.behindScheme, List.filter_append,
    List.filter_eq_self.mpr fun b hb => (hvisible b (hscheme b hb)).2]
  · rfl
  · rw [Request.urlText_eq, List.head?_append]
    intro b hb
    cases hs : Request.schemeText head with
    | nil =>
      rw [hs] at hb
      cases hb
      rfl
    | cons b s =>
      rw [hs] at hb
      cases hb
      exact (hvisible b (hscheme b (hs ▸ List.mem_cons_self))).1
  · intro b hb
    have hlast : b ∈ head.target.pathAndQuery := by
      apply List.mem_of_getLast?
      rw [← hb, Request.urlText,
        List.getLast?_append_of_ne_nil _ (Http.Target.pathAndQuery_ne_nil _)]
    simpa using h.lt_of_mem_pathAndQuery b hlast

/-! ## Targets in URLs -/

theorem queryText_eq (h : t.WellFormed) :
    t.queryText = [] ∨ ∃ q, t.queryText = 0x3F :: q ∧ 0x23 ∉ q := by
  refine h.queryText_cases.imp_right ?_
  rintro ⟨q, hq, hbytes⟩
  exact ⟨q, hq, fun hhash => absurd (hbytes _ hhash) (by decide)⟩

theorem read_queryText (h : t.WellFormed) (special : Bool) :
    Url.authorityOf special t.queryText = [] ∧
      behindAuthority special t.queryText = t.queryText := by
  rcases queryText_eq h with hnone | ⟨q, hq, -⟩
  · rw [hnone]
    exact ⟨rfl, rfl⟩
  · have hmark := Url.endsAuthority_mark special
    rw [hq]
    exact ⟨Url.authorityOf_cons hmark q, Url.behindAuthority_cons hmark q⟩

theorem read_of_rooted (h : t.WellFormed) (special : Bool) {rest : Bytes}
    (hrest : t.shownPath = 0x2F :: rest) :
    Url.authorityOf special t.pathAndQuery = [] ∧
      pathText (behindAuthority special t.pathAndQuery) = t.shownPath := by
  have hslash := Url.endsAuthority_slash special
  have hshown : ∀ b ∈ t.shownPath, b ≠ 0x23 ∧ b ≠ 0x3F := by
    intro b hb
    have hbyte := h.isPathByte_shownPath b hb
    constructor <;> (rintro rfl; revert hbyte; decide)
  have hpath := Url.pathText_append hshown (queryText_eq h)
  rw [Http.Target.pathAndQuery_eq]
  rw [hrest, List.cons_append] at hpath ⊢
  rw [Url.authorityOf_cons hslash, Url.behindAuthority_cons hslash]
  exact ⟨rfl, hpath⟩

/-- What is read of a target behind an authority: a lone star goes to the authority, any other path
is read as it is shown. -/
theorem read_pathAndQuery (h : t.WellFormed) (special : Bool) :
    Url.authorityOf special t.pathAndQuery = (if t.shownPath = [0x2A] then [0x2A] else []) ∧
      pathText (behindAuthority special t.pathAndQuery) =
        if t.shownPath = [0x2A] then [] else t.shownPath := by
  obtain ⟨hauthority, hbehind⟩ := read_queryText h special
  have hquery := Url.pathText_query (queryText_eq h)
  rcases h.shownPath_cases with ⟨heq, hhead⟩ | ⟨hstar, -⟩ | ⟨hempty | heq, -⟩
  · obtain ⟨rest, hrest⟩ := List.head?_eq_some_iff.mp hhead
    have hne : t.shownPath ≠ [0x2A] := by simp [heq, hrest]
    rw [if_neg hne, if_neg hne]
    exact read_of_rooted h special (heq.trans hrest)
  · -- A star ends no authority, so it stands behind the host.
    have hstart : ∀ b ∈ [0x2A], endsAuthority special b = false :=
      List.forall_mem_singleton.mpr (by cases special <;> decide)
    rw [if_pos hstar, if_pos hstar, Http.Target.pathAndQuery_eq, hstar,
      Url.authorityOf_append hstart, Url.behindAuthority_append hstart, hauthority, hbehind]
    exact ⟨rfl, hquery⟩
  · have hne : t.shownPath ≠ [0x2A] := by simp [hempty]
    rw [if_neg hne, if_neg hne, Http.Target.pathAndQuery_eq, hempty, List.nil_append, hauthority,
      hbehind]
    exact ⟨rfl, hquery⟩
  · have hne : t.shownPath ≠ [0x2A] := by simp [heq]
    rw [if_neg hne, if_neg hne]
    exact read_of_rooted h special heq

/-! ## Authorities -/

theorem authority_bytes {a : Bytes} (h : head.target.WellFormed)
    (ha : head.target.authority = some a) :
    ∀ b ∈ a, endsAuthority true b = false ∧ endsAuthority false b = false ∧ !isLineBreak b := by
  have hbyte : ∀ b, Http.Target.isAuthorityByte b = true →
      endsAuthority true b = false ∧ endsAuthority false b = false ∧ !isLineBreak b :=
    Bytes.forall_byte (by decide +kernel)
  exact fun b hb => hbyte b ((h.authority a ha).2 b hb)

theorem authorityText_of_some {a : Bytes} (ha : head.target.authority = some a) :
    Request.authorityText head = a := by
  rw [Request.authorityText, ha]
  rfl

theorem filter_authorityText {a : Bytes} (h : head.target.WellFormed)
    (ha : head.target.authority = some a) :
    (Request.authorityText head).filter (!isLineBreak ·) = a := by
  rw [authorityText_of_some ha]
  exact List.filter_eq_self.mpr fun b hb => (authority_bytes h ha b hb).2.2

theorem behindScheme_eq (h : head.target.WellFormed) :
    Request.behindScheme head =
      (Request.authorityText head).filter (!isLineBreak ·) ++ head.target.pathAndQuery := by
  have hvisible : ∀ b, (0x20 : UInt8) < b → !isLineBreak b := by grind [isLineBreak]
  have hkept : ∀ b ∈ head.target.pathAndQuery, (!isLineBreak b) = true := by
    intro b hb
    exact hvisible b (h.lt_of_mem_pathAndQuery b hb)
  rw [Request.behindScheme, List.filter_append, List.filter_eq_self.mpr hkept]

/-- A request without a scheme is read as one of a special scheme, and an authority of a target has
no backslash. -/
theorem not_mem_authorityOf (h : head.target.WellFormed)
    (hspecial : Url.isSpecial ((Request.schemeText head).map Bytes.toLower) = false) :
    0x5C ∉ Url.authorityOf false (Request.behindScheme head) := by
  cases ha : head.target.authority with
  | none =>
    rw [Request.schemeText, h.origin ha] at hspecial
    exact absurd hspecial (by decide)
  | some a =>
    have hbytes := authority_bytes h ha
    rw [behindScheme_eq h, filter_authorityText h ha,
      Url.authorityOf_append fun b hb => (hbytes b hb).2.1, (read_pathAndQuery h false).1]
    intro hmem
    rcases List.mem_append.mp hmem with hmem | hmem
    · exact absurd (hbytes _ hmem).1 (by decide)
    · split at hmem
      · exact absurd hmem (by decide)
      · cases hmem

/-- The path of a request is read of its scheme and of what follows `://`. -/
theorem path_of_ofHead (h : head.target.WellFormed)
    (hrequest : Request.ofHead head source remote = .ok request) :
    request.url.path =
      readPath ((Request.schemeText head).map Bytes.toLower) (Request.behindScheme head) := by
  rw [Request.ofHead] at hrequest
  split at hrequest
  · cases hrequest
  · next url hurl =>
    cases hrequest
    exact Url.path_of_parse hurl (filter_urlText h) (isSchemeByte_schemeText h)
      (not_mem_authorityOf h)

theorem exists_ofHead (head : Http.RequestHead) (source : Source) (remote : Option Net.Endpoint)
    (h : (Url.parse (Request.urlText head)).isOk = true) :
    ∃ request, Request.ofHead head source remote = .ok request := by
  rw [Request.ofHead]
  cases hparse : Url.parse (Request.urlText head) with
  | error e =>
    rw [hparse] at h
    cases h
  | ok url => exact ⟨_, rfl⟩

end Gatehouse
