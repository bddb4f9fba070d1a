import Mathlib.Tactic.MkIffOfInductiveProp
import Gatehouse.Predicate.Basic
import Gatehouse.Proofs.Bytes

/-!
# Cookies as clients write them

A header `cookie` is a row of elements with semicolons between them. An element is a cookie in some
spelling (`SpelledCookie`: blanks around the name and the value, and double quotes around the value or
none) or anything without an equals sign, which is no cookie. `cookies` reads exactly the cookies back,
over all headers and in order, whatever the layout (`cookies_of_spelled`). A header with a byte that is
no text is passed over as a whole, with the cookies in it (`cookies_of_other_byte`).

Three cuts have to fall on the right places: at the semicolons, which no spelling holds; at the first
equals sign, behind which a value may hold others; and at the blanks and quotes, which a value may hold
too, but not around it.
-/

namespace Gatehouse.Http

/-! ## Spellings -/

/-- Whether a byte is visible ASCII. -/
def isVisible (b : UInt8) : Bool := 0x21 ≤ b && b ≤ 0x7E

/-- A text between double quotes. -/
def quoted (text : Bytes) : Bytes := 0x22 :: (text ++ [0x22])

/-- Whether a value stands between double quotes. -/
def IsQuoted (value : Bytes) : Prop := ∃ inner, value = quoted inner

instance (value : Bytes) : Decidable (IsQuoted value) :=
  decidable_of_iff (value = quoted value.tail.dropLast) ⟨fun h => ⟨_, h⟩, by
    rintro ⟨inner, rfl⟩
    simp only [quoted, List.tail_cons, List.dropLast_concat]⟩

/-- A cookie with the layout that a client gives it: blanks at four places, and quotes or none. -/
structure SpelledCookie where
  name : Bytes
  value : Bytes
  isQuoted : Bool := false
  beforeName : Bytes := []
  afterName : Bytes := []
  beforeValue : Bytes := []
  afterValue : Bytes := []
  deriving DecidableEq

namespace SpelledCookie

/-- The value as it is written. -/
def valueText (c : SpelledCookie) : Bytes := if c.isQuoted then quoted c.value else c.value

/-- The cookie as it is written. -/
def text (c : SpelledCookie) : Bytes :=
  c.beforeName ++ c.name ++ c.afterName ++
    0x3D :: (c.beforeValue ++ c.valueText ++ c.afterValue)

/-- What names and values are made of. A value that stands between quotes of its own could not be told
from a quoted one. -/
@[mk_iff]
structure WellFormed (c : SpelledCookie) : Prop where
  name_ne_nil : c.name ≠ []
  name_visible : ∀ b ∈ c.name, isVisible b = true ∧ b ≠ 0x3D ∧ b ≠ 0x3B
  value_visible : ∀ b ∈ c.value, isVisible b = true ∧ b ≠ 0x3B
  value_not_quoted : ¬ IsQuoted c.value
  beforeName_blank : ∀ b ∈ c.beforeName, isBlank b = true
  afterName_blank : ∀ b ∈ c.afterName, isBlank b = true
  beforeValue_blank : ∀ b ∈ c.beforeValue, isBlank b = true
  afterValue_blank : ∀ b ∈ c.afterValue, isBlank b = true

instance (c : SpelledCookie) : Decidable c.WellFormed :=
  letI : ∀ (p : UInt8 → Prop) [DecidablePred p] (bs : Bytes), Decidable (∀ b ∈ bs, p b) :=
    fun p _ bs => List.decidableBAll p bs
  decidable_of_iff' _ c.wellFormed_iff

end SpelledCookie

/-- What stands between two semicolons. -/
inductive CookieElement
  | pair (cookie : SpelledCookie)
  | other (text : Bytes)
  deriving DecidableEq

namespace CookieElement

/-- The element as it is written. -/
def text : CookieElement → Bytes
  | .pair c => c.text
  | .other text => text

/-- The name and the value, if it is a cookie. -/
def pair? : CookieElement → Option (Bytes × Bytes)
  | .pair c => some (c.name, c.value)
  | .other _ => none

/-- Whether all its bytes are text, which those of a cookie are. -/
def isText : CookieElement → Bool
  | .pair _ => true
  | .other text => text.all isTextByte

/-- An element is one piece, and it has no equals sign unless it is a cookie. -/
def WellFormed : CookieElement → Prop
  | .pair c => c.WellFormed
  | .other text => 0x3D ∉ text ∧ 0x3B ∉ text

instance (e : CookieElement) : Decidable e.WellFormed :=
  match e with
  | .pair c => inferInstanceAs (Decidable c.WellFormed)
  | .other text => inferInstanceAs (Decidable (0x3D ∉ text ∧ 0x3B ∉ text))

end CookieElement

/-- A header as it is written. -/
def cookieText (header : List CookieElement) : Bytes := [0x3B].intercalate (header.map (·.text))

/-- The cookies that a header is written for. -/
def cookiePairs (header : List CookieElement) : List (Bytes × Bytes) := header.filterMap (·.pair?)

variable {c : SpelledCookie} {e : CookieElement} {header : List CookieElement}
variable {b : UInt8} {bs value : Bytes} {hs : Headers}

/-! ## Bytes -/

theorem isBlank_iff : isBlank b = true ↔ b = 0x20 ∨ b = 0x09 := by
  rw [isBlank, Bool.or_eq_true, beq_iff_eq, beq_iff_eq]

theorem not_blank_of_visible (h : isVisible b = true) : isBlank b = false := by
  rw [← Bool.not_eq_true, isBlank_iff]
  rintro (rfl | rfl) <;> exact absurd h (by decide)

theorem isTextByte_of_visible (h : isVisible b = true) : isTextByte b = true := by
  simp only [isVisible, Bool.and_eq_true, decide_eq_true_eq] at h
  simp only [isTextByte, Bool.or_eq_true, Bool.and_eq_true, decide_eq_true_eq]
  exact .inl ⟨UInt8.le_trans (by decide) h.1, UInt8.lt_of_le_of_lt h.2 (by decide)⟩

theorem isTextByte_of_blank (h : isBlank b = true) : isTextByte b = true := by
  rcases isBlank_iff.mp h with rfl | rfl <;> decide

theorem ne_of_blank (h : isBlank b = true) : b ≠ 0x3D ∧ b ≠ 0x3B := by
  rcases isBlank_iff.mp h with rfl | rfl <;> decide

/-- Blanks around visible bytes are trimmed off, and nothing else. -/
theorem trim_append {before after : Bytes} (hbefore : ∀ b ∈ before, isBlank b = true)
    (hafter : ∀ b ∈ after, isBlank b = true) (hhead : ∀ b ∈ bs.head?, isVisible b = true)
    (hlast : ∀ b ∈ bs.getLast?, isVisible b = true) : trim (before ++ bs ++ after) = bs :=
  Bytes.trimBy_append hbefore hafter (fun b hb => not_blank_of_visible (hhead b hb))
    fun b hb => not_blank_of_visible (hlast b hb)

/-! ## Quotes -/

theorem unquote_quoted (text : Bytes) : unquote (quoted text) = text := by
  rw [quoted, unquote, if_pos List.getLast?_concat, List.dropLast_concat]

/-- A value keeps a quote that stands at one end only. -/
theorem unquote_eq_self (h : ¬ IsQuoted value) : unquote value = value := by
  unfold unquote
  split
  · next rest =>
    split
    · next hlast =>
      have hrest : rest.dropLast ++ [0x22] = rest := List.dropLast_append_getLast? _ hlast
      exact absurd ⟨rest.dropLast, congrArg (0x22 :: ·) hrest.symm⟩ h
    · rfl
  · rfl

/-! ## One cookie -/

namespace SpelledCookie.WellFormed

/-- Quotes are visible, and no semicolons. -/
theorem valueText_visible (h : c.WellFormed) :
    ∀ b ∈ c.valueText, isVisible b = true ∧ b ≠ 0x3B := by
  intro b hb
  rw [valueText] at hb
  split at hb
  · rw [quoted, List.mem_cons, List.mem_append, List.mem_singleton] at hb
    rcases hb with rfl | hb | rfl
    · decide
    · exact h.value_visible b hb
    · decide
  · exact h.value_visible b hb

theorem unquote_valueText (h : c.WellFormed) : unquote c.valueText = c.value := by
  rw [valueText]
  split
  · exact unquote_quoted c.value
  · exact unquote_eq_self h.value_not_quoted

/-- Every byte of a cookie is text, and none is a semicolon. -/
theorem text_mem (h : c.WellFormed) : ∀ b ∈ c.text, isTextByte b = true ∧ b ≠ 0x3B := by
  have hblank : ∀ b, isBlank b = true → isTextByte b = true ∧ b ≠ 0x3B :=
    fun b hb => ⟨isTextByte_of_blank hb, (ne_of_blank hb).2⟩
  have hname : ∀ b ∈ c.name, isTextByte b = true ∧ b ≠ 0x3B :=
    fun b hb => ⟨isTextByte_of_visible (h.name_visible b hb).1, (h.name_visible b hb).2.2⟩
  have hvalue : ∀ b ∈ c.valueText, isTextByte b = true ∧ b ≠ 0x3B :=
    fun b hb => ⟨isTextByte_of_visible (h.valueText_visible b hb).1, (h.valueText_visible b hb).2⟩
  simp only [text, List.forall_mem_append, List.forall_mem_cons]
  exact ⟨⟨⟨fun b hb => hblank b (h.beforeName_blank b hb), hname⟩,
    fun b hb => hblank b (h.afterName_blank b hb)⟩, by decide,
    ⟨fun b hb => hblank b (h.beforeValue_blank b hb), hvalue⟩,
    fun b hb => hblank b (h.afterValue_blank b hb)⟩

/-- What is left of a cookie without the blanks around it. Behind an empty value there may be nothing
left but the equals sign. -/
theorem exists_trim_text (h : c.WellFormed) :
    ∃ rest, trim c.text = c.name ++ c.afterName ++ 0x3D :: rest ∧ trim rest = c.valueText := by
  have hhead (bs : Bytes) : ∀ b ∈ (c.name ++ bs).head?, isVisible b = true := by
    intro b hb
    rw [List.head?_append_of_ne_nil _ h.name_ne_nil] at hb
    exact (h.name_visible b (List.mem_of_mem_head? hb)).1
  have hvalue : ∀ b ∈ c.valueText, isVisible b = true := fun b hb => (h.valueText_visible b hb).1
  by_cases hempty : c.valueText = []
  · -- the blanks on both sides of the empty value go with those behind it
    refine ⟨[], ?_, hempty.symm⟩
    have hafter : ∀ b ∈ c.beforeValue ++ c.afterValue, isBlank b = true :=
      List.forall_mem_append.mpr ⟨h.beforeValue_blank, h.afterValue_blank⟩
    have hlast : ∀ b ∈ (c.name ++ (c.afterName ++ [0x3D])).getLast?, isVisible b = true := by
      rw [← List.append_assoc, List.getLast?_concat]
      rintro _ ⟨⟩
      decide
    have htrim := trim_append h.beforeName_blank hafter (hhead _) hlast
    simpa only [text, hempty, List.append_nil, List.append_assoc, List.cons_append,
      List.nil_append] using htrim
  · refine ⟨c.beforeValue ++ c.valueText, ?_, ?_⟩
    · have hlast : ∀ b ∈ (c.name ++ (c.afterName ++ 0x3D :: c.beforeValue ++ c.valueText)).getLast?,
          isVisible b = true := by
        intro b hb
        rw [← List.append_assoc, List.getLast?_append_of_ne_nil _ hempty] at hb
        exact hvalue b (List.mem_of_mem_getLast? hb)
      have htrim := trim_append h.beforeName_blank h.afterValue_blank (hhead _) hlast
      simpa only [text, List.append_assoc, List.cons_append] using htrim
    · have htrim : trim (c.beforeValue ++ c.valueText ++ []) = c.valueText :=
        trim_append h.beforeValue_blank (List.forall_mem_nil _)
          (fun b hb => hvalue b (List.mem_of_mem_head? hb))
          fun b hb => hvalue b (List.mem_of_mem_getLast? hb)
      rwa [List.append_nil] at htrim

/-- A cookie is read back from its spelling. -/
theorem cookiePair?_text (h : c.WellFormed) : cookiePair? c.text = some (c.name, c.value) := by
  obtain ⟨rest, htext, hrest⟩ := h.exists_trim_text
  have hname : 0x3D ∉ c.name ++ c.afterName := by
    rw [List.mem_append, not_or]
    exact ⟨fun hmem => (h.name_visible _ hmem).2.1 rfl,
      fun hmem => (ne_of_blank (h.afterName_blank _ hmem)).1 rfl⟩
  have htrim : trim (c.name ++ c.afterName) = c.name :=
    trim_append (List.forall_mem_nil _) h.afterName_blank
      (fun b hb => (h.name_visible b (List.mem_of_mem_head? hb)).1)
      fun b hb => (h.name_visible b (List.mem_of_mem_getLast? hb)).1
  simp only [cookiePair?, htext, Bytes.splitOnce_append hname, Option.map_some, htrim, hrest,
    h.unquote_valueText]

end SpelledCookie.WellFormed

/-! ## One header -/

namespace CookieElement.WellFormed

theorem not_mem_text (h : e.WellFormed) : 0x3B ∉ e.text := by
  cases e with
  | pair c => exact fun hmem => (SpelledCookie.WellFormed.text_mem h _ hmem).2 rfl
  | other text => exact h.2

theorem all_isTextByte_text (h : e.WellFormed) : e.text.all isTextByte = e.isText := by
  cases e with
  | pair c =>
    exact List.all_eq_true.mpr fun b hb => (SpelledCookie.WellFormed.text_mem h b hb).1
  | other text => rfl

/-- An element is read as the cookie that it is, or as none. -/
theorem cookiePair?_text (h : e.WellFormed) : cookiePair? e.text = e.pair? := by
  cases e with
  | pair c => exact SpelledCookie.WellFormed.cookiePair?_text h
  | other text =>
    have hmem : 0x3D ∉ trim text := fun hb => h.1 (Bytes.mem_of_mem_trimBy hb)
    rw [CookieElement.text, cookiePair?, Bytes.splitOnce_of_not_mem hmem]
    rfl

end CookieElement.WellFormed

/-- The cookies of a header are read back. A header without any element is one piece too, the empty
one, which is no cookie. -/
theorem filterMap_cookiePair? (h : ∀ e ∈ header, e.WellFormed) :
    (Bytes.splitOn 0x3B (cookieText header)).filterMap cookiePair? = cookiePairs header := by
  cases header with
  | nil => rfl
  | cons e header =>
    have hpieces : ∀ piece ∈ (e :: header).map (·.text), 0x3B ∉ piece :=
      List.forall_mem_map.mpr fun e he => (h e he).not_mem_text
    rw [cookieText, Bytes.splitOn_eq, List.splitOn_intercalate _ hpieces (List.cons_ne_nil _ _),
      List.filterMap_map]
    exact List.filterMap_congr fun e he => (h e he).cookiePair?_text

/-- A header is text if its elements are. -/
theorem all_isTextByte_cookieText (h : ∀ e ∈ header, e.WellFormed) :
    (cookieText header).all isTextByte = header.all (·.isText) := by
  have hsep : ∀ b ∈ ([0x3B] : Bytes), isTextByte b = true :=
    List.forall_mem_singleton.mpr (by decide)
  rw [Bool.eq_iff_iff, List.all_eq_true, List.all_eq_true, cookieText, forall_mem_intercalate hsep,
    List.forall_mem_map]
  refine forall₂_congr fun e he => ?_
  rw [← (h e he).all_isTextByte_text, List.all_eq_true]

/-! ## All headers -/

/-- A header counts if it is all text. -/
theorem cookies_eq (hs : Headers) :
    cookies hs = ((hs.values cookie).filter (·.all isTextByte)).flatMap fun value =>
      (Bytes.splitOn 0x3B value).filterMap cookiePair? := by
  have htext : text? = Option.guard (·.all isTextByte) := rfl
  rw [cookies, htext, List.filterMap_eq_filter]

variable {headers : List (List CookieElement)}

theorem cookies_eq_flatMap (hwf : ∀ header ∈ headers, ∀ e ∈ header, e.WellFormed)
    (hvalues : hs.values cookie = headers.map cookieText) :
    cookies hs = (headers.filter (·.all (·.isText))).flatMap cookiePairs := by
  have hfilter : headers.filter ((·.all isTextByte) ∘ cookieText) =
      headers.filter (·.all (·.isText)) :=
    List.filter_congr fun header hmem => all_isTextByte_cookieText (hwf header hmem)
  rw [cookies_eq, hvalues, List.filter_map, List.flatMap_map, hfilter]
  exact List.flatMap_congr fun header hmem =>
    filterMap_cookiePair? (hwf header (List.mem_of_mem_filter hmem))

/-- A predicate is for the requests with a cookie of its name and a value that matches. -/
theorem test_cookie_iff (clock : Clock) (r : RequestHead) (name : Bytes) (regex : Option Regex) :
    (Predicate.cookie name regex).test clock r = .ok true ↔
      ∃ value, (name, value) ∈ cookies r.headers ∧
        ∀ re ∈ regex, re.isMatch (Bytes.toLatin value).toList = true := by
  simp only [Predicate.test, pure, Except.pure, Except.ok.injEq, Predicate.valueMatches, List.any_eq_true, Bool.and_eq_true, beq_iff_eq,
    Option.all_eq_true]
  constructor
  · rintro ⟨⟨k, value⟩, hmem, rfl, hregex⟩
    exact ⟨value, hmem, hregex⟩
  · rintro ⟨value, hmem, hregex⟩
    exact ⟨(name, value), hmem, rfl, hregex⟩

/-- **Cookies are read back from every layout.** Let the headers `cookie` of a request be written for
rows of cookies, with other elements among them. The cookies of the request are exactly those of the
headers that are all text, in order, so all of them if the other elements are text; and a predicate is
for the request if one of these has its name and a value that its expression accepts. -/
theorem cookies_of_spelled {r : RequestHead}
    (hwf : ∀ header ∈ headers, ∀ e ∈ header, e.WellFormed)
    (hvalues : r.headers.values cookie = headers.map cookieText) :
    cookies r.headers = (headers.filter (·.all (·.isText))).flatMap cookiePairs ∧
    ((∀ header ∈ headers, ∀ e ∈ header, e.isText = true) →
      cookies r.headers = headers.flatMap cookiePairs) ∧
    ∀ (clock : Clock) (name : Bytes) (regex : Option Regex),
      (Predicate.cookie name regex).test clock r = .ok true ↔
        ∃ header ∈ headers, (∀ e ∈ header, e.isText = true) ∧
          ∃ value, (name, value) ∈ cookiePairs header ∧
            ∀ re ∈ regex, re.isMatch (Bytes.toLatin value).toList = true := by
  have hcookies := cookies_eq_flatMap hwf hvalues
  refine ⟨hcookies, fun htext => ?_, fun clock name regex => ?_⟩
  · have hall : headers.filter (·.all (·.isText)) = headers :=
      List.filter_eq_self.mpr fun header hmem => List.all_eq_true.mpr (htext header hmem)
    rw [hcookies, hall]
  · simp only [test_cookie_iff, hcookies, List.mem_flatMap, List.mem_filter, List.all_eq_true]
    constructor
    · rintro ⟨value, ⟨header, ⟨hmem, htext⟩, hpair⟩, hregex⟩
      exact ⟨header, hmem, htext, value, hpair, hregex⟩
    · rintro ⟨header, hmem, htext, value, hpair, hregex⟩
      exact ⟨value, ⟨header, ⟨hmem, htext⟩, hpair⟩, hregex⟩

/-! ## A session in two headers -/

/-- Cookies in quotes, with an equals sign in the value, with no value and with a quote for a value;
attributes and a header without any element stand among them. -/
def sessionCookies : List (List CookieElement) :=
  [[.pair { name := Bytes.ofString "sid", value := Bytes.ofString "a=1", isQuoted := true,
            beforeName := [0x20], afterName := [0x09], beforeValue := [0x20], afterValue := [0x20] },
    .other (Bytes.ofString " HttpOnly ")],
   [],
   [.pair { name := Bytes.ofString "theme", value := [], beforeValue := [0x20] }, .other [],
    .pair { name := Bytes.ofString "q", value := [0x22] }]]

theorem cookies_of_spelled_session :
    let r : RequestHead :=
      { headers := [⟨cookie, Bytes.ofString " sid\t= \x22a=1\x22 ; HttpOnly "⟩,
          ⟨host, Bytes.ofString "gateway"⟩, ⟨cookie, []⟩, ⟨cookie, Bytes.ofString "theme= ;;q=\x22"⟩] }
    (∀ header ∈ sessionCookies, ∀ e ∈ header, e.WellFormed) ∧
    r.headers.values cookie = sessionCookies.map cookieText ∧
    cookies r.headers = [(Bytes.ofString "sid", Bytes.ofString "a=1"), (Bytes.ofString "theme", []),
      (Bytes.ofString "q", [0x22])] ∧
    ∀ clock, (Predicate.cookie (Bytes.ofString "theme") none).test clock r = .ok true := by
  intro r
  have hwf : ∀ header ∈ sessionCookies, ∀ e ∈ header, e.WellFormed := by decide
  have hvalues : r.headers.values cookie = sessionCookies.map cookieText := by decide
  obtain ⟨-, hcookies, htest⟩ := cookies_of_spelled hwf hvalues
  refine ⟨hwf, hvalues, ?_, fun clock => ?_⟩
  · rw [hcookies (by decide)]
    decide
  · rw [htest]
    exact ⟨_, .tail _ (.tail _ (.head _)), by decide, [], by decide, nofun⟩

/-- A header holds a cookie and an element that is no text, and the cookie is not read. -/
theorem cookies_of_other_byte :
    let header : List CookieElement :=
      [.pair { name := [0x61], value := [0x62] }, .other [0x20, 0xE9]]
    let hs : Headers := [⟨cookie, cookieText header⟩]
    (∀ e ∈ header, e.WellFormed) ∧ (cookieText header).all isValueByte = true ∧
    cookiePairs header = [([0x61], [0x62])] ∧ cookies hs = [] := by
  decide

end Gatehouse.Http
