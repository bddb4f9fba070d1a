import Gatehouse.Proofs.Url.Reading

/-!
# Well-formed URLs

Whatever is read as a URL of the scheme `http` or `https` has its parts in normal form, and so has
what becomes of it when other paths and queries are put in. A part that is in normal form is put in
as it is: `setPath` and `setQuery` then change that part to it and no other part at all.
-/

namespace Gatehouse.Url

variable {scheme text path : Bytes} {query : Option Bytes} {u : Url}

/-- The URLs that there can be: those that are read, and what becomes of them when a path or a query
is put in or the fragment is taken away. -/
inductive Attainable : Url → Prop
  | parse {text : Bytes} {u : Url} : parse text = .ok u → Attainable u
  | setPath {u : Url} (text : Bytes) : Attainable u → Attainable (u.setPath text)
  | setQuery {u : Url} (text : Option Bytes) : Attainable u → Attainable (u.setQuery text)
  | dropFragment {u : Url} : Attainable u → Attainable { u with fragment := none }

/-- A URL of the scheme `http` or `https` whose parts are in normal form. -/
structure WellFormed (u : Url) : Prop where
  web : u.scheme = http ∨ u.scheme = https
  host : ∃ text host, Host.parse text = .ok host ∧ u.host = some host
  username : ∀ b ∈ u.username, userSet b = false
  password : ∀ p ∈ u.password, ∀ b ∈ p, userSet b = false
  path : IsNormal u.path
  query : ∀ q ∈ u.query, ∀ b ∈ q, querySet true b = false
  fragment : ∀ f ∈ u.fragment, ∀ b ∈ f, fragmentSet b = false

/-! ## Parts in normal form -/

theorem web_of_isWeb (h : u.isWeb = true) : u.scheme = http ∨ u.scheme = https := by
  rw [isWeb, Bool.and_eq_true, Bool.or_eq_true, beq_iff_eq, beq_iff_eq] at h
  exact h.1

theorem isSpecial_of_web (h : scheme = http ∨ scheme = https) : isSpecial scheme = true := by
  rcases h with rfl | rfl <;> decide

theorem ne_file_of_web (h : scheme = http ∨ scheme = https) : scheme ≠ file := by
  rcases h with rfl | rfl <;> decide

theorem userSet_of_mem_encode {b : UInt8} {bs : Bytes} : b ∈ encode userSet bs → userSet b = false :=
  set_of_mem_encode (by grind [userSet, pathSet, fragmentSet, controlSet])

theorem querySet_of_mem_encode {b : UInt8} {bs : Bytes} :
    b ∈ encode (querySet true) bs → querySet true b = false :=
  set_of_mem_encode (by grind [querySet, controlSet])

theorem fragmentSet_of_mem_encode {b : UInt8} {bs : Bytes} :
    b ∈ encode fragmentSet bs → fragmentSet b = false :=
  set_of_mem_encode (by grind [fragmentSet, controlSet])

theorem filter_isLineBreak {bs : Bytes} (h : ∀ b ∈ bs, isLineBreak b = false) :
    bs.filter (!isLineBreak ·) = bs :=
  List.filter_eq_self.mpr fun b hb => by simp [h b hb]

theorem isLineBreak_of_pathSet : ∀ b, pathSet b = false → isLineBreak b = false := by
  grind [pathSet, fragmentSet, controlSet, isLineBreak]

theorem map_encode_eq_self {set : EncodeSet} {part : Option Bytes}
    (h : ∀ p ∈ part, ∀ b ∈ p, set b = false) : part.map (encode set) = part := by
  cases part with
  | none => rfl
  | some p => rw [Option.map_some, encode_eq_self (h p rfl)]

/-! ## What is read is well-formed -/

theorem clean_credentials (user : Bytes) :
    (∀ b ∈ (credentials user).1, userSet b = false) ∧
      ∀ p ∈ (credentials user).2, ∀ b ∈ p, userSet b = false := by
  rw [credentials]
  dsimp only
  refine ⟨fun b hb => userSet_of_mem_encode hb, ?_⟩
  split
  · rintro p ⟨⟩ b hb
    exact userSet_of_mem_encode hb
  · rintro p ⟨⟩

/-- The query and the fragment that are put behind well-formed parts are in normal form. -/
theorem WellFormed.withTail (h : WellFormed u) (query fragment : Option Bytes) :
    WellFormed (withTail u query fragment) where
  web := h.web
  host := h.host
  username := h.username
  password := h.password
  path := h.path
  query := by
    intro q hq b hb
    obtain ⟨text, -, rfl⟩ := Option.map_eq_some_iff.mp hq
    rw [isSpecial_of_web h.web] at hb
    exact querySet_of_mem_encode hb
  fragment := by
    intro f hf b hb
    obtain ⟨text, -, rfl⟩ := Option.map_eq_some_iff.mp hf
    exact fragmentSet_of_mem_encode hb

theorem wellFormed_of_parseAuthority (hweb : scheme = http ∨ scheme = https)
    (h : parseAuthority scheme text = .ok u) : WellFormed u := by
  unfold parseAuthority at h
  simp only [isSpecial_of_web hweb, if_true, Bool.true_or] at h
  obtain ⟨host, hhost, h⟩ := bind_eq_ok.mp h
  split at h
  · cases h
  · obtain ⟨port, -, h⟩ := bind_eq_ok.mp h
    cases h
    refine WellFormed.withTail ⟨hweb, ⟨_, host, hhost, rfl⟩, ?_, ?_, isNormal_resolve _,
      by rintro _ ⟨⟩, by rintro _ ⟨⟩⟩ _ _
    · exact (clean_credentials _).1
    · exact (clean_credentials _).2

theorem scheme_of_parseAuthority (h : parseAuthority scheme text = .ok u) : u.scheme = scheme := by
  unfold parseAuthority at h
  simp only at h
  split at h
  all_goals
    obtain ⟨host, -, h⟩ := bind_eq_ok.mp h
    split at h
    · cases h
    · obtain ⟨port, -, h⟩ := bind_eq_ok.mp h
      cases h
      rfl

theorem scheme_of_drivePath? (host : Option Host) (path : Bytes) (query fragment : Option Bytes) :
    (withTail (match drivePath? path with
      | some onDrive => { scheme := file, path := onDrive }
      | none => { scheme := file, host, path }) query fragment).scheme = file := by
  cases drivePath? path <;> rfl

theorem scheme_of_parseFile (h : parseFile text = .ok u) : u.scheme = file := by
  unfold parseFile at h
  simp only [pure_bind] at h
  -- The authority is a drive, empty or a host, whatever it is made of.
  rcases ite_eq_iff.mp h with ⟨-, h⟩ | ⟨-, h⟩
  · cases h
    exact scheme_of_drivePath? ..
  · rcases ite_eq_iff.mp h with ⟨-, h⟩ | ⟨-, h⟩
    · cases h
      exact scheme_of_drivePath? ..
    · obtain ⟨host, -, h⟩ := bind_eq_ok.mp h
      cases h
      exact scheme_of_drivePath? ..

theorem scheme_of_parseOther (h : parseOther scheme text = .ok u) : u.scheme = scheme := by
  unfold parseOther at h
  split at h
  · exact scheme_of_parseAuthority h
  · cases h
    rfl

/-- A text that is read as a URL of the scheme `http` or `https` has an authority. -/
theorem wellFormed_of_parse (h : parse text = .ok u) (hweb : u.scheme = http ∨ u.scheme = https) :
    WellFormed u := by
  unfold parse at h
  split at h
  · cases h
  · next scheme rest hscheme =>
    split at h
    · exact absurd (scheme_of_parseFile h) (ne_file_of_web hweb)
    · split at h
      · rw [scheme_of_parseAuthority h] at hweb
        exact wellFormed_of_parseAuthority hweb h
      · next hspecial =>
        rw [scheme_of_parseOther h] at hweb
        exact absurd (isSpecial_of_web hweb) hspecial

/-! ## Putting parts in -/

theorem scheme_setPath (u : Url) (text : Bytes) : (u.setPath text).scheme = u.scheme := by
  rw [setPath]
  split
  · split <;> rfl
  · rfl

theorem WellFormed.isOpaque_eq (h : WellFormed u) : u.isOpaque = false := by
  obtain ⟨-, host, -, hhost⟩ := h.host
  simp [isOpaque, hhost]

theorem WellFormed.setPath_eq (h : WellFormed u) (text : Bytes) :
    u.setPath text = { u with path := resolve true (text.filter (!isLineBreak ·)) } := by
  rw [setPath]
  simp only [h.isOpaque_eq, isSpecial_of_web h.web, Bool.false_eq_true, if_false]

theorem WellFormed.setQuery_eq (h : WellFormed u) (query : Option Bytes) :
    u.setQuery query =
      { u with query := query.map fun q => encode (querySet true) (q.filter (!isLineBreak ·)) } := by
  rw [setQuery, isSpecial_of_web h.web]

theorem WellFormed.setPath (h : WellFormed u) (text : Bytes) : WellFormed (u.setPath text) := by
  rw [h.setPath_eq]
  exact { h with path := isNormal_resolve _ }

theorem WellFormed.setQuery (h : WellFormed u) (query : Option Bytes) :
    WellFormed (u.setQuery query) := by
  rw [h.setQuery_eq]
  refine { h with query := ?_ }
  intro q hq b hb
  obtain ⟨text, -, rfl⟩ := Option.map_eq_some_iff.mp hq
  exact querySet_of_mem_encode hb

/-- However a URL of the scheme `http` or `https` has come about, it is well-formed. -/
theorem Attainable.wellFormed (h : Attainable u) (hweb : u.scheme = http ∨ u.scheme = https) :
    WellFormed u := by
  induction h with
  | parse hread => exact wellFormed_of_parse hread hweb
  | @setPath u text _ ih =>
    rw [scheme_setPath] at hweb
    exact (ih hweb).setPath text
  | setQuery text _ ih => exact (ih hweb).setQuery text
  | dropFragment _ ih => exact { ih hweb with fragment := nofun }

/-- A normal path is put in as it is. -/
theorem WellFormed.setPath_of_isNormal (h : WellFormed u) (hpath : IsNormal path) :
    u.setPath path = { u with path } := by
  rw [h.setPath_eq, filter_isLineBreak fun b hb => isLineBreak_of_pathSet b (hpath.clean b hb).1,
    resolve_of_isNormal true hpath]

/-- A query with nothing to escape is put in as it is. -/
theorem WellFormed.setQuery_of_clean (h : WellFormed u)
    (hquery : ∀ q ∈ query, ∀ b ∈ q, querySet true b = false) :
    u.setQuery query = { u with query } := by
  have hbreak : ∀ b, querySet true b = false → isLineBreak b = false := by
    grind [querySet, controlSet, isLineBreak]
  have hkept : query.map (·.filter (!isLineBreak ·)) = query := by
    cases query with
    | none => rfl
    | some q => rw [Option.map_some, filter_isLineBreak fun b hb => hbreak b (hquery q rfl b hb)]
  rw [h.setQuery_eq, ← Function.comp_def, ← Option.map_map, hkept, map_encode_eq_self hquery]

end Gatehouse.Url
