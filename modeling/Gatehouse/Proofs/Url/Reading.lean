import Mathlib.Data.List.TakeDrop
import Mathlib.Data.List.TakeWhile
import Gatehouse.Url.Basic
import Gatehouse.Proofs.Except
import Gatehouse.Proofs.Url.Path

/-!
# The path of a URL that is read

The path of a parsed URL comes from what stands behind `://` in its text and from nothing else:
`readPath` says which path that is, without the host, the port and the user information.
-/

namespace Gatehouse.Url

variable {scheme text : Bytes} {url : Url}

theorem cut_eq (p : UInt8 → Bool) (bs : Bytes) :
    cut p bs = (bs.takeWhile (!p ·), bs.dropWhile (!p ·)) :=
  List.span_eq_takeWhile_dropWhile _ bs

/-! ## The text of the path -/

/-- What stands in front of a query and a fragment. -/
def pathText (text : Bytes) : Bytes := (text.takeWhile (· != 0x23)).takeWhile (· != 0x3F)

theorem tailParts_fst (text : Bytes) : (tailParts text).1 = pathText text := by
  simp only [tailParts, cut_eq]
  rfl

/-- Whether a byte ends an authority. -/
def endsAuthority (special : Bool) (b : UInt8) : Bool :=
  isSeparator special b || b == 0x3F || b == 0x23

theorem endsAuthority_slash (special : Bool) : endsAuthority special 0x2F = true := by
  cases special <;> decide

theorem endsAuthority_mark (special : Bool) : endsAuthority special 0x3F = true := by
  cases special <;> decide

/-- The authority at the front of a text. -/
def authorityOf (special : Bool) (text : Bytes) : Bytes :=
  text.takeWhile fun b => !endsAuthority special b

/-- What stands behind the authority of a text. -/
def behindAuthority (special : Bool) (text : Bytes) : Bytes :=
  text.dropWhile fun b => !endsAuthority special b

theorem authorityOf_append {special : Bool} {authority : Bytes}
    (h : ∀ b ∈ authority, endsAuthority special b = false) (text : Bytes) :
    authorityOf special (authority ++ text) = authority ++ authorityOf special text :=
  List.takeWhile_append_of_pos fun b hb => by simp [h b hb]

theorem behindAuthority_append {special : Bool} {authority : Bytes}
    (h : ∀ b ∈ authority, endsAuthority special b = false) (text : Bytes) :
    behindAuthority special (authority ++ text) = behindAuthority special text :=
  List.dropWhile_append_of_pos fun b hb => by simp [h b hb]

theorem authorityOf_cons {special : Bool} {b : UInt8} (h : endsAuthority special b = true)
    (text : Bytes) : authorityOf special (b :: text) = [] :=
  List.takeWhile_cons_of_neg (by simp [h])

theorem behindAuthority_cons {special : Bool} {b : UInt8} (h : endsAuthority special b = true)
    (text : Bytes) : behindAuthority special (b :: text) = b :: text :=
  List.dropWhile_cons_of_neg (by simp [h])

/-- A query behind a path is no part of its text. -/
theorem pathText_append {path query : Bytes} (hpath : ∀ b ∈ path, b ≠ 0x23 ∧ b ≠ 0x3F)
    (hquery : query = [] ∨ ∃ q, query = 0x3F :: q ∧ 0x23 ∉ q) :
    pathText (path ++ query) = path := by
  have hhash : ∀ b ∈ path ++ query, (b != 0x23) = true := by
    intro b hb
    rw [bne_iff_ne]
    rintro rfl
    rcases List.mem_append.mp hb with hb | hb
    · exact (hpath _ hb).1 rfl
    · rcases hquery with rfl | ⟨q, rfl, hq⟩
      · cases hb
      · exact hq ((List.mem_cons.mp hb).resolve_left (by decide))
  have hmark : query.takeWhile (· != 0x3F) = [] := by
    rcases hquery with rfl | ⟨q, rfl, -⟩
    · rfl
    · exact List.takeWhile_cons_of_neg (by decide)
  rw [pathText, List.takeWhile_eq_self_iff.mpr hhash,
    List.takeWhile_append_of_pos fun b hb => bne_iff_ne.mpr (hpath b hb).2, hmark, List.append_nil]

theorem pathText_query {query : Bytes} (hquery : query = [] ∨ ∃ q, query = 0x3F :: q ∧ 0x23 ∉ q) :
    pathText query = [] :=
  pathText_append (List.forall_mem_nil _) hquery

theorem cut_endsAuthority (special : Bool) (text : Bytes) :
    cut (fun b => isSeparator special b || b == 0x3F || b == 0x23) text =
      (authorityOf special text, behindAuthority special text) :=
  cut_eq _ _

/-- The path of the URL of a scheme whose text goes on with `://` and `text`. -/
def readPath (scheme text : Bytes) : Bytes :=
  if scheme = file then
    let drive := if isDrive (authorityOf true text) then authorityOf true text else []
    let path := resolve true (pathText (drive ++ behindAuthority true text))
    (drivePath? path).getD path
  else if isSpecial scheme then
    resolve true (pathText (behindAuthority true (text.dropWhile (isSeparator true))))
  else if (pathText (behindAuthority false text)).isEmpty then []
  else resolve false (pathText (behindAuthority false text))

theorem mem_of_drivePath? {path onDrive : Bytes} (h : drivePath? path = some onDrive) :
    ∀ b ∈ onDrive, b ∈ path ∨ b = 0x3A := by
  revert h
  fun_cases drivePath? path with
  | case1 letter mark rest hdrive =>
    rintro ⟨⟩
    intro b hb
    simp only [List.mem_cons] at hb ⊢
    rcases hb with hb | hb | hb | hb
    · exact .inl (.inl hb)
    · exact .inl (.inr (.inl hb))
    · exact .inr hb
    · exact .inl (.inr (.inr (.inr hb)))
  | case2 letter mark rest hdrive => rintro ⟨⟩
  | case3 path hform => rintro ⟨⟩

/-- Nothing is left to escape in a path that is read. -/
theorem pathSet_of_mem_readPath : ∀ b ∈ readPath scheme text, pathSet b = false := by
  intro b hb
  rw [readPath] at hb
  split at hb
  · simp only at hb
    cases hdrive : drivePath? (resolve true _) with
    | none =>
      rw [hdrive] at hb
      exact pathSet_of_mem_resolve b hb
    | some onDrive =>
      rw [hdrive] at hb
      rcases mem_of_drivePath? hdrive b hb with hb | rfl
      · exact pathSet_of_mem_resolve b hb
      · decide
  · split at hb
    · exact pathSet_of_mem_resolve b hb
    · split at hb
      · cases hb
      · exact pathSet_of_mem_resolve b hb

/-! ## Authorities -/

theorem splitHost_append (bracketed : Bool) (text : Bytes) :
    (splitHost bracketed text).1 ++ (splitHost bracketed text).2 = text := by
  induction text generalizing bracketed with
  | nil => rfl
  | cons b bs ih =>
    rw [splitHost]
    split
    · rfl
    · simp only [List.cons_append, ih]

theorem splitUser_subset (authority : Bytes) : (splitUser authority).2 ⊆ authority := by
  intro b hb
  have hhost : (splitUser authority).2 = (authority.reverse.takeWhile (· ≠ 0x40)).reverse := by
    rw [splitUser, List.span_eq_takeWhile_dropWhile]
    split <;> simp_all
  rw [hhost, List.mem_reverse] at hb
  exact List.mem_reverse.mp (List.takeWhile_subset _ hb)

/-- Without a backslash in an authority nothing stands behind its port. -/
theorem behindPort_eq_nil {authority : Bytes} (h : 0x5C ∉ authority) :
    (splitHost false (splitUser authority).2).2.tail.dropWhile (fun b => !b == 0x5C) = [] := by
  rw [List.dropWhile_eq_nil_iff]
  intro b hb
  have hmem : b ∈ authority := by
    apply splitUser_subset authority
    rw [← splitHost_append false (splitUser authority).2]
    exact List.mem_append_right _ (List.mem_of_mem_tail hb)
  have hne : b ≠ 0x5C := fun heq => h (heq ▸ hmem)
  simpa using hne

theorem not_mem_authorityOf (text : Bytes) : 0x5C ∉ authorityOf true text := by
  intro hmem
  have hends := List.mem_takeWhile_imp hmem
  cases hends

theorem path_of_parseAuthority (h : parseAuthority scheme text = .ok url)
    (hback : 0x5C ∉ authorityOf (isSpecial scheme) text) :
    url.path =
      if isSpecial scheme || !(pathText (behindAuthority (isSpecial scheme) text)).isEmpty then
        resolve (isSpecial scheme) (pathText (behindAuthority (isSpecial scheme) text))
      else [] := by
  unfold parseAuthority at h
  simp only [cut_endsAuthority] at h
  simp only [cut_eq, behindPort_eq_nil hback, List.nil_append, tailParts_fst] at h
  -- Both ways to read the host are followed by the same steps.
  split at h
  all_goals
    obtain ⟨host, -, h⟩ := bind_eq_ok.mp h
    split at h
    · cases h
    · obtain ⟨port, -, h⟩ := bind_eq_ok.mp h
      cases h
      rfl

/-- A path on a drive has the colon of the drive, whatever host it stands behind. -/
theorem path_of_drivePath? (host : Option Host) (path : Bytes) (query fragment : Option Bytes) :
    (withTail (match drivePath? path with
      | some onDrive => { scheme := file, path := onDrive }
      | none => { scheme := file, host, path }) query fragment).path =
      (drivePath? path).getD path := by
  cases drivePath? path <;> rfl

theorem path_of_parseFile (h : parseFile (0x2F :: 0x2F :: text) = .ok url) :
    url.path = readPath file text := by
  have hsep : isSeparator true 0x2F = true := by decide
  unfold parseFile at h
  simp only [hsep, Bool.and_self, if_true, cut_endsAuthority, tailParts_fst, pure_bind] at h
  rw [readPath, if_pos rfl]
  split at h
  · next hdrive =>
    cases h
    simp only [if_pos hdrive]
    exact path_of_drivePath? ..
  · next hdrive =>
    simp only [if_neg hdrive, List.nil_append]
    split at h
    · cases h
      exact path_of_drivePath? ..
    · obtain ⟨host, -, h⟩ := bind_eq_ok.mp h
      cases h
      exact path_of_drivePath? ..

/-! ## Schemes -/

theorem splitScheme?_append (hscheme : ∀ b ∈ scheme, isSchemeByte b = true) (rest : Bytes) :
    splitScheme? (scheme ++ 0x3A :: rest) =
      if scheme.head?.any Bytes.isAlpha then some (scheme.map Bytes.toLower, rest) else none := by
  have hcolon : ¬ isSchemeByte 0x3A = true := by decide
  rw [splitScheme?, List.takeWhile_append_of_pos hscheme, List.dropWhile_append_of_pos hscheme,
    List.takeWhile_cons_of_neg hcolon, List.dropWhile_cons_of_neg hcolon, List.append_nil]
  cases scheme <;> rfl

/-- The path of a URL that is read, if no backslash stands in its authority. -/
theorem path_of_parse {rest : Bytes} (h : parse text = .ok url)
    (htext : (Bytes.trimBy (· ≤ 0x20) text).filter (!isLineBreak ·) =
      scheme ++ 0x3A :: 0x2F :: 0x2F :: rest)
    (hscheme : ∀ b ∈ scheme, isSchemeByte b = true)
    (hback : isSpecial (scheme.map Bytes.toLower) = false → 0x5C ∉ authorityOf false rest) :
    url.path = readPath (scheme.map Bytes.toLower) rest := by
  have hsep : isSeparator true 0x2F = true := by decide
  rw [parse, htext, splitScheme?_append hscheme] at h
  -- A text whose scheme begins with no letter is not read at all.
  by_cases halpha : scheme.head?.any Bytes.isAlpha = true
  · rw [if_pos halpha] at h
    simp only at h
    by_cases hfile : scheme.map Bytes.toLower = file
    · rw [if_pos hfile] at h
      rw [hfile]
      exact path_of_parseFile h
    · rw [if_neg hfile] at h
      rw [readPath, if_neg hfile]
      cases hspecial : isSpecial (scheme.map Bytes.toLower) with
      | true =>
        rw [hspecial, if_pos rfl, List.dropWhile_cons_of_pos hsep,
          List.dropWhile_cons_of_pos hsep] at h
        have hpath := path_of_parseAuthority h (hspecial ▸ not_mem_authorityOf _)
        rw [hspecial] at hpath
        simpa using hpath
      | false =>
        rw [hspecial, if_neg (by decide)] at h
        have hpath := path_of_parseAuthority h (hspecial ▸ hback hspecial)
        rw [hspecial] at hpath
        simpa using hpath
  · rw [if_neg halpha] at h
    cases h

end Gatehouse.Url
