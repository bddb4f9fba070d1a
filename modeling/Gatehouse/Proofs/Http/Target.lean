import Mathlib.Data.List.TakeWhile
import Gatehouse.Http.Target
import Gatehouse.Proofs.Bytes

/-!
# What a request target is made of

A target that `Target.parse?` gives keeps the bytes of its text, but not any bytes: `WellFormed`
says which ones stand in each part and how the path begins.
-/

namespace Gatehouse.Http.Target

variable {t t' : Target} {bs : Bytes}

/-- Whether a byte may stand in an authority. -/
def isAuthorityByte (b : UInt8) : Bool :=
  Bytes.isAlpha b || Bytes.isDigit b || b == 0x25 || authorityMarks.contains b

/-- The bytes of the parts of a target, and how its path begins. -/
structure WellFormed (t : Target) : Prop where
  scheme : ∀ s ∈ t.scheme, ∀ b ∈ s, isSchemeByte b = true
  authority : ∀ a ∈ t.authority, a ≠ [] ∧ ∀ b ∈ a, isAuthorityByte b = true
  path : ∀ b ∈ t.rawPath, isPathByte b = true
  query : ∀ q ∈ t.query, ∀ b ∈ q, isQueryByte b = true
  rooted : t.rawPath = [] ∨ t.rawPath.head? = some 0x2F ∨ t.rawPath = [0x2A]
  /-- A scheme is followed by an authority. -/
  origin : t.authority = none → t.scheme = none

/-! ## Authorities -/

theorem isAuthorityByte_of_step? {s s' : Scan} {b : UInt8} (h : s.step? b = some s') :
    isAuthorityByte b = true := by
  by_cases halnum : (Bytes.isAlpha b || Bytes.isDigit b || authorityMarks.contains b) = true
  · rw [isAuthorityByte]
    revert halnum
    cases Bytes.isAlpha b <;> cases Bytes.isDigit b <;> simp
    exact .inr
  · -- Besides letters, digits and marks, a step is possible for a percent sign only.
    have hmark : b ∉ authorityMarks := by
      intro hb
      simp [hb] at halnum
    have hpercent : b = 0x25 := by
      by_cases hb : b = 0x25
      · exact hb
      · have hne : ∀ c ∈ authorityMarks, b ≠ c := fun c hc heq => hmark (heq ▸ hc)
        have h3A := hne 0x3A (by decide)
        have h5B := hne 0x5B (by decide)
        have h5D := hne 0x5D (by decide)
        have h40 := hne 0x40 (by decide)
        simp [Scan.step?, hb, h3A, h5B, h5D, h40] at h
        simp [h.1] at halnum
    subst hpercent
    decide

theorem isAuthorityByte_of_foldlM {s s' : Scan} (h : bs.foldlM Scan.step? s = some s') :
    ∀ b ∈ bs, isAuthorityByte b = true := by
  induction bs generalizing s with
  | nil => simp
  | cons b bs ih =>
    rw [List.foldlM_cons, Option.bind_eq_bind, Option.bind_eq_some_iff] at h
    obtain ⟨next, hstep, hrest⟩ := h
    exact List.forall_mem_cons.mpr ⟨isAuthorityByte_of_step? hstep, ih hrest⟩

theorem isAuthorityByte_of_isAuthority (h : isAuthority bs = true) :
    ∀ b ∈ bs, isAuthorityByte b = true := by
  rw [isAuthority] at h
  cases hscan : bs.foldlM Scan.step? {} with
  | none => rw [hscan] at h; cases h
  | some s => exact isAuthorityByte_of_foldlM hscan

/-! ## Targets -/

/-- A path with a query keeps the scheme and the authority. -/
theorem withPathAndQuery?_eq_some (h : t.withPathAndQuery? bs = some t') :
    t'.scheme = t.scheme ∧ t'.authority = t.authority ∧
      t'.rawPath.head? = (bs.head?.filter (· != 0x23)).filter (· != 0x3F) ∧
      (∀ b ∈ t'.rawPath, isPathByte b = true) ∧
      ∀ q ∈ t'.query, ∀ b ∈ q, isQueryByte b = true := by
  simp only [withPathAndQuery?, Option.ite_none_right_eq_some, Option.some.injEq,
    Bool.and_eq_true, List.all_eq_true] at h
  obtain ⟨⟨⟨hpath, hquery⟩, -⟩, rfl⟩ := h
  refine ⟨rfl, rfl, ?_, hpath, ?_⟩
  · rw [List.head?_takeWhile, List.head?_takeWhile]
  · intro q hq
    rw [Option.mem_def] at hq
    dsimp only at hq
    rw [hq] at hquery
    exact hquery

theorem isSchemeByte_of_splitScheme? {scheme rest : Bytes}
    (h : splitScheme? bs = some (scheme, rest)) : ∀ b ∈ scheme, isSchemeByte b = true := by
  rw [splitScheme?] at h
  split at h
  · cases h
    exact fun b hb => List.mem_takeWhile_imp hb
  · cases h

theorem isSchemeByte_canonicalScheme {scheme : Bytes} (h : ∀ b ∈ scheme, isSchemeByte b = true) :
    ∀ b ∈ canonicalScheme scheme, isSchemeByte b = true := by
  have hlower : ∀ b, isSchemeByte b = true → isSchemeByte (Bytes.toLower b) = true := by
    grind [isSchemeByte, Bytes.isAlpha, Bytes.isDigit, Bytes.toLower]
  rw [canonicalScheme]
  split
  · intro b hb
    obtain ⟨c, hc, rfl⟩ := List.mem_map.mp hb
    exact hlower c (h c hc)
  · exact h

theorem wellFormed_asterisk : WellFormed { rawPath := [0x2A] } where
  scheme := nofun
  authority := nofun
  path := List.forall_mem_singleton.mpr (by decide)
  query := nofun
  rooted := .inr (.inr rfl)
  origin _ := rfl

theorem wellFormed_empty : WellFormed {} where
  scheme := nofun
  authority := nofun
  path := List.forall_mem_nil _
  query := nofun
  rooted := .inl rfl
  origin _ := rfl

/-- An authority may stand alone or behind a scheme. -/
theorem wellFormed_authority {scheme : Option Bytes}
    (hscheme : ∀ s ∈ scheme, ∀ b ∈ s, isSchemeByte b = true) (hne : bs ≠ [])
    (h : isAuthority bs = true) : WellFormed { scheme, authority := bs } where
  scheme := hscheme
  authority := by
    rintro a ⟨⟩
    exact ⟨hne, isAuthorityByte_of_isAuthority h⟩
  path := List.forall_mem_nil _
  query := nofun
  rooted := .inl rfl
  origin := nofun

/-- A path with a query, if there is any, may follow whatever is in front of it. -/
theorem WellFormed.withPathAndQuery? (ht : t.WellFormed)
    (hends : ∀ b ∈ bs.head?, endsAuthority b = true) (h : t.withPathAndQuery? bs = some t') :
    t'.WellFormed := by
  obtain ⟨hscheme, hauthority, hhead, hpath, hquery⟩ := withPathAndQuery?_eq_some h
  refine ⟨hscheme ▸ ht.scheme, hauthority ▸ ht.authority, hpath, hquery, ?_, ?_⟩
  · -- what ends an authority begins a path, a query or a fragment
    cases bs with
    | nil => exact .inl (List.head?_eq_none_iff.mp hhead)
    | cons b more =>
      have hb : endsAuthority b = true := hends b rfl
      simp only [endsAuthority, Bool.or_eq_true, beq_iff_eq] at hb
      rcases hb with (rfl | rfl) | rfl
      · exact .inr (.inl hhead)
      · exact .inl (List.head?_eq_none_iff.mp hhead)
      · exact .inl (List.head?_eq_none_iff.mp hhead)
  · rw [hscheme, hauthority]
    exact ht.origin

/-- Every target that is read is well-formed. -/
theorem wellFormed_of_parse? (h : parse? bs = some t) : t.WellFormed := by
  rw [parse?] at h
  split at h
  · cases h
  next hlength =>
  have hne : bs ≠ [] := by
    rintro rfl
    simp at hlength
  split at h
  · next hstar =>
    cases h
    exact hstar ▸ wellFormed_asterisk
  split at h
  · next hslash =>
    refine wellFormed_empty.withPathAndQuery? (fun b hb => ?_) h
    rw [hslash] at hb
    cases hb
    rfl
  split at h
  · next scheme rest hsplit =>
    simp only at h
    split at h
    · cases h
    · next hforms =>
      simp only [Bool.or_eq_true, Bool.not_eq_true', not_or, Bool.not_eq_false] at hforms
      have hscheme := isSchemeByte_canonicalScheme (isSchemeByte_of_splitScheme? hsplit)
      have hfront : ∀ s ∈ some (canonicalScheme scheme), ∀ b ∈ s, isSchemeByte b = true := by
        rintro s ⟨⟩
        exact hscheme
      refine (wellFormed_authority hfront (by simpa using hforms.1.2)
        hforms.2).withPathAndQuery? (fun b hb => ?_) h
      have hstop := List.head?_dropWhile_not (fun b => !endsAuthority b) rest
      rw [Option.mem_def.mp hb] at hstop
      simpa using hstop
  · split at h
    · next hauthority =>
      cases h
      exact wellFormed_authority nofun hne hauthority
    · cases h

/-! ## Paths with queries -/

/-- The path in front of a query: a slash if there is neither. -/
def shownPath (t : Target) : Bytes := if t.rawPath = [] ∧ t.query = none then [0x2F] else t.rawPath

/-- The query with its question mark. -/
def queryText (t : Target) : Bytes := (t.query.map (0x3F :: ·)).getD []

theorem pathAndQuery_eq (t : Target) : t.pathAndQuery = t.shownPath ++ t.queryText := by
  cases hq : t.query with
  | some q => simp [pathAndQuery, shownPath, queryText, hq]
  | none =>
    by_cases hempty : t.rawPath = [] <;> simp [pathAndQuery, shownPath, queryText, hq, hempty]

theorem pathAndQuery_ne_nil (t : Target) : t.pathAndQuery ≠ [] := by
  rw [pathAndQuery_eq]
  cases hq : t.query with
  | some q => simp [queryText, hq]
  | none => by_cases hempty : t.rawPath = [] <;> simp [shownPath, hq, hempty]

namespace WellFormed

theorem isPathByte_shownPath (h : t.WellFormed) : ∀ b ∈ t.shownPath, isPathByte b = true := by
  rw [shownPath]
  split
  · exact List.forall_mem_singleton.mpr (by decide)
  · exact h.path

theorem isPathByte_path (h : t.WellFormed) : ∀ b ∈ t.path, isPathByte b = true := by
  rw [Target.path]
  split
  · exact List.forall_mem_singleton.mpr (by decide)
  · exact h.path

theorem queryText_cases (h : t.WellFormed) :
    t.queryText = [] ∨ ∃ q, t.queryText = 0x3F :: q ∧ ∀ b ∈ q, isQueryByte b = true := by
  rw [queryText]
  cases hq : t.query with
  | none => exact .inl rfl
  | some q => exact .inr ⟨q, rfl, h.query q hq⟩

/-- The bytes of a path with a query are visible, or lie beyond ASCII. -/
theorem lt_of_mem_pathAndQuery (h : t.WellFormed) : ∀ b ∈ t.pathAndQuery, 0x20 < b := by
  have hvisible : ∀ b, isPathByte b = true ∨ isQueryByte b = true → 0x20 < b :=
    Bytes.forall_byte (by decide +kernel)
  intro b hb
  rw [pathAndQuery_eq, List.mem_append] at hb
  rcases hb with hb | hb
  · exact hvisible b (.inl (h.isPathByte_shownPath b hb))
  · rcases h.queryText_cases with hempty | ⟨q, hq, hbytes⟩
    · rw [hempty] at hb
      cases hb
    · rw [hq] at hb
      rcases List.mem_cons.mp hb with rfl | hb
      · decide
      · exact hvisible b (.inr (hbytes b hb))

/-- The shown path is the path of the target, up to a slash for an empty one. -/
theorem shownPath_cases (h : t.WellFormed) :
    (t.shownPath = t.path ∧ t.path.head? = some 0x2F) ∨ (t.shownPath = [0x2A] ∧ t.path = [0x2A]) ∨
      ((t.shownPath = [] ∨ t.shownPath = [0x2F]) ∧ (t.path = [] ∨ t.path = [0x2F])) := by
  rcases h.rooted with hempty | hslash | hstar
  · refine .inr (.inr ⟨?_, ?_⟩)
    · rw [shownPath, hempty]
      split
      · exact .inr rfl
      · exact .inl rfl
    · rw [Target.path, hempty]
      split
      · exact .inr rfl
      · exact .inl rfl
  · have hne : t.rawPath ≠ [] := by
      intro hempty
      rw [hempty] at hslash
      cases hslash
    simp [shownPath, Target.path, hne, hslash]
  · simp [shownPath, Target.path, hstar]

end WellFormed

end Gatehouse.Http.Target
