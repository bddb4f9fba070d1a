import Gatehouse.Proofs.Filter.RequestHeader
import Gatehouse.Proofs.Url.Text

/-!
# Path edits in a chain

A chain makes one edit of the path of a request after another, and keeps the URL from before the
first of them. Whatever text an edit puts in the place of the path, it becomes a path: the other parts
of the URL, and all of its text in front of the path and behind it, are what they were.
-/

namespace Gatehouse

open Url (IsNormal WellFormed)

variable {f : Filter} {fs chain ran : List Filter} {w w' : World} {x x' : Exchange}

/-- The URL that an exchange keeps as the first one, if it keeps one. -/
def Exchange.keptUrl (x : Exchange) : Option Url :=
  match x.attributes.lookup firstUrl with
  | some (.url u) => some u
  | _ => none

theorem Exchange.keptUrl_eq_some {u : Url} :
    x.keptUrl = some u ↔ x.attributes.lookup firstUrl = some (.url u) := by
  rw [keptUrl]
  split
  · next v hkept => simp [hkept]
  · next hfree => exact ⟨nofun, fun hkept => absurd hkept (hfree u)⟩

namespace Filter

/-- Whether a filter edits paths. -/
def isPathEdit : Filter → Bool
  | .pathEdit .. => true
  | _ => false

/-- The path that a filter makes of a path. -/
def editedPath (path : Bytes) : Filter → Bytes
  | .pathEdit pattern replacement =>
    match rewritten? pattern replacement (Bytes.toLatin path) with
    | some text => Url.resolve true ((Bytes.ofString text).filter (!Url.isLineBreak ·))
    | none => path
  | _ => path

theorem isNormal_editedPath {path : Bytes} (h : IsNormal path) (f : Filter) :
    IsNormal (editedPath path f) := by
  unfold editedPath
  split
  · split
    · exact Url.isNormal_resolve _
    · exact h
  · exact h

theorem isNormal_foldl_editedPath {path : Bytes} (h : IsNormal path) (fs : List Filter) :
    IsNormal (fs.foldl editedPath path) := by
  induction fs generalizing path with
  | nil => exact h
  | cons f fs ih => exact ih (isNormal_editedPath h f)

/-! ## One filter -/

theorem keptUrl_keepFirstUrl (x : Exchange) :
    (keepFirstUrl x).keptUrl = some (x.keptUrl.getD x.request.url) := by
  rw [keepFirstUrl]
  split
  · next u hkept =>
    rw [Exchange.keptUrl_eq_some.mpr hkept]
    rfl
  · next hfree =>
    have hnone : x.keptUrl = none :=
      Option.eq_none_iff_forall_ne_some.mpr fun u hkept =>
        hfree u (Exchange.keptUrl_eq_some.mp hkept)
    rw [hnone, Exchange.keptUrl_eq_some]
    exact List.lookup_cons_self

/-- What a path edit makes of an exchange. -/
theorem replacePath_eq (pattern : Regex) (replacement : List Char) (h : WellFormed x.request.url) :
    (replacePath pattern replacement x).request.url =
        { x.request.url with
          path := editedPath x.request.url.path (.pathEdit pattern replacement) } ∧
      (replacePath pattern replacement x).keptUrl = some (x.keptUrl.getD x.request.url) := by
  rw [← keptUrl_keepFirstUrl, replacePath]
  simp only [editedPath, request_keepFirstUrl]
  cases rewritten? pattern replacement (Bytes.toLatin x.request.url.path) with
  | some text => exact ⟨h.setPath_eq _, rfl⟩
  | none => exact ⟨congrArg Request.url (request_keepFirstUrl x), rfl⟩

/-- A filter of the gateway that edits no path leaves the URL and the attributes alone. -/
theorem url_pre_of_not_isPathEdit (hbuiltIn : f.IsBuiltIn) (hedit : f.isPathEdit = false) (w : World)
    (x : Exchange) : (f.pre w x).2.2.request.url = x.request.url ∧
      (f.pre w x).2.2.attributes = x.attributes := by
  cases f with
  | header side name edit => cases side <;> exact ⟨rfl, rfl⟩
  | pathEdit => cases hedit
  | logger level maxBody =>
    obtain ⟨body, hx⟩ := exists_logRequest_eq w x level maxBody
    rw [pre, hx]
    exact ⟨rfl, rfl⟩
  | rateLimit =>
    simp only [pre]
    split <;> exact ⟨rfl, rfl⟩
  | custom => exact hbuiltIn.elim

/-- What the hook of a filter before the request makes of the URL, and which URL it keeps. -/
theorem url_pre (hbuiltIn : f.IsBuiltIn) (h : WellFormed x.request.url) (w : World) :
    (f.pre w x).2.2.request.url = { x.request.url with path := editedPath x.request.url.path f } ∧
      (f.pre w x).2.2.keptUrl =
        if f.isPathEdit then some (x.keptUrl.getD x.request.url) else x.keptUrl := by
  cases hedit : f.isPathEdit with
  | true =>
    cases f with
    | pathEdit pattern replacement => exact replacePath_eq pattern replacement h
    | header | logger | rateLimit | custom => cases hedit
  | false =>
    obtain ⟨hurl, hattributes⟩ := url_pre_of_not_isPathEdit hbuiltIn hedit w x
    have hpath : editedPath x.request.url.path f = x.request.url.path := by
      cases f with
      | pathEdit => cases hedit
      | header | logger | rateLimit | custom => rfl
    rw [hpath, Exchange.keptUrl, hattributes]
    exact ⟨hurl, rfl⟩

/-! ## A chain -/

/-- What the hooks of a chain before the request make of the URL, and which URL they keep: the paths
are edited one after the other, and the URL that the first of the edits has met is kept. -/
theorem Ran.url (h : Ran pre .pre fs w x ran none w' x') (hbuiltIn : ∀ f ∈ fs, f.IsBuiltIn)
    (hurl : WellFormed x.request.url) :
    x'.request.url = { x.request.url with path := fs.foldl editedPath x.request.url.path } ∧
      x'.keptUrl =
        if fs.any isPathEdit then some (x.keptUrl.getD x.request.url) else x.keptUrl := by
  induction fs generalizing w x ran with
  | nil =>
    cases h
    exact ⟨rfl, rfl⟩
  | cons f fs ih =>
    cases h with
    | @next _ _ _ _ _ _ _ _ x₁ _ hf hlater =>
      obtain ⟨v, hpre, -⟩ := exists_of_runHook hf
      have hbuiltInHere := hbuiltIn f List.mem_cons_self
      obtain ⟨hfirst, hkept⟩ := url_pre hbuiltInHere hurl (w.note (.pre f.name))
      rw [hpre] at hfirst hkept
      have hwell : WellFormed x₁.request.url := by
        rw [hfirst]
        exact { hurl with path := isNormal_editedPath hurl.path f }
      obtain ⟨hrest, hkeptRest⟩ :=
        ih hlater (fun g hg => hbuiltIn g (List.mem_cons_of_mem _ hg)) hwell
      refine ⟨by rw [hrest, hfirst, List.foldl_cons], ?_⟩
      rw [hkeptRest, hkept, List.any_cons]
      -- A filter that edits no path hands its URL on to the ones behind it as it met it.
      cases hedit : f.isPathEdit with
      | true => simp
      | false =>
        have hsame : x₁.request.url = x.request.url := by
          rw [← (url_pre_of_not_isPathEdit hbuiltInHere hedit _ x).1, hpre]
        rw [hsame]
        simp

end Filter

/-- **A chain only ever edits the path, and keeps the URL from before.** Behind the hooks of a chain
that edits paths, the URL that the request came with is kept, and the current one is that URL with the
edited path, which is normal. So the text of the current URL has the same front and the same query and
fragment around the path, and is read as the text from before with another path. -/
theorem path_edits_keep_first_url (hbuiltIn : ∀ f ∈ chain, f.IsBuiltIn)
    (hedits : ∃ f ∈ chain, f.isPathEdit = true) (hurl : x.request.url.Attainable)
    (hweb : x.request.url.scheme = Url.http ∨ x.request.url.scheme = Url.https)
    (hfree : x.attributes.lookup firstUrl = none)
    (hpre : Filter.preAll chain w x = (.passed, w', x')) :
    x'.attributes.lookup firstUrl = some (.url x.request.url) ∧
      x'.request.url =
        { x.request.url with path := chain.foldl Filter.editedPath x.request.url.path } ∧
      IsNormal x'.request.url.path ∧
      x'.request.url.render = x.request.url.front ++ (x'.request.url.path ++
        Url.marked 0x3F x.request.url.query ++ Url.marked 0x23 x.request.url.fragment) ∧
      Url.parse x'.request.url.render =
        (Url.parse x.request.url.render).map fun v => { v with path := x'.request.url.path } := by
  have hwell := hurl.wellFormed hweb
  obtain ⟨hpath, hkept⟩ := (Filter.ran_of_runHooks hpre).url hbuiltIn hwell
  have hnormal := Filter.isNormal_foldl_editedPath hwell.path chain
  have hedited : WellFormed x'.request.url := by
    rw [hpath]
    exact { hwell with path := hnormal }
  have hfirst : x.keptUrl = none := by
    rw [Exchange.keptUrl, hfree]
  rw [if_pos (List.any_eq_true.mpr hedits), hfirst, Option.getD_none] at hkept
  refine ⟨Exchange.keptUrl_eq_some.mp hkept, hpath, hedited.path, ?_, ?_⟩
  · rw [hedited.render_eq, Url.pathAndQuery_eq, hpath]
    rfl
  · rw [hpath]
    exact hwell.parse_render_path hnormal

/-! ## Edits with the marks of a query and a fragment -/

/-- The filter that puts a text in the place of each occurrence of a letter. -/
def Filter.replaceLetter (c : Char) (text : String) : Filter :=
  .pathEdit { node := .letter 0 (.ofList [(c.toNat, c.toNat)]) } text.toList

/-- A chain with two path edits and another filter between them. -/
def editingChain : List Filter :=
  [.replaceLetter 'x' "/../b?admin=1#c", setUser, .replaceLetter 'a' "%2e%2E"]

/-- A URL with a query and a fragment. -/
def searchUrl : Url where
  scheme := Url.http
  host := some (.domain (Bytes.ofString "gateway"))
  path := Bytes.ofString "/a/x"
  query := some (Bytes.ofString "q=1")
  fragment := some (Bytes.ofString "top")

/-- What the edits bring along stays in the path, and the URL from before both is kept. -/
theorem path_edits_keep_first_url_twice :
    let x : Exchange := { Exchange.withHeaders [] with request := { url := searchUrl } }
    Url.parse (.ofString "http://gateway/a/x?q=1#top") = .ok searchUrl ∧
      ∃ w' x', Filter.preAll editingChain default x = (.passed, w', x') ∧
        x'.attributes.lookup firstUrl = some (.url searchUrl) ∧
        x'.request.url.render = .ofString "http://gateway/b%3F%2e%2Edmin=1%23c?q=1#top" := by
  intro x
  have hparse : Url.parse (.ofString "http://gateway/a/x?q=1#top") = .ok searchUrl := by decide +kernel
  have hbuiltIn : ∀ f ∈ editingChain, f.IsBuiltIn := by
    simp only [editingChain, List.forall_mem_cons]
    exact ⟨trivial, trivial, trivial, nofun⟩
  have hpre : Filter.preAll editingChain default x =
      (.passed, (Filter.preAll editingChain default x).2) := rfl
  obtain ⟨hkept, hpath, -, htext, -⟩ := path_edits_keep_first_url hbuiltIn
    ⟨_, List.mem_cons_self, rfl⟩ (.parse hparse) (.inl rfl) rfl hpre
  refine ⟨hparse, _, _, hpre, hkept, ?_⟩
  rw [htext, hpath]
  decide +kernel

end Gatehouse
