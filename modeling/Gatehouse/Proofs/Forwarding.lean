import Gatehouse.Route
import Gatehouse.Proofs.Exchange.RequestUrl
import Gatehouse.Proofs.Path.Pattern
import Gatehouse.Proofs.Route
import Gatehouse.Proofs.Url.WellFormed

/-!
# The path that is routed on and the path that is sent

Predicates read the path of a request as it is written. The path that is sent comes from a URL made
of the host and the target, which is read by the rules of the URL standard. `forwardedPath` says
which path that is for every request that is well-formed, and the two agree exactly on normal paths
as long as the host does not run into the path.
-/

namespace Gatehouse

open Url (IsNormal resolve readPath pathText behindAuthority endsAuthority isLineBreak pathSet)

variable {head : Http.RequestHead} {source : Source} {remote : Option Net.Endpoint}
  {request : Request} {route : Route}

/-! ## The path that is sent -/

/-- The path that a request is sent with, whatever route it takes. -/
def forwardedPath (head : Http.RequestHead) : Bytes :=
  resolve true
    (readPath ((Request.schemeText head).map Bytes.toLower) (Request.behindScheme head))

/-- Every route puts the path of a request in as it was read. -/
theorem path_destination (hweb : route.uri.isWeb = true) (h : head.target.WellFormed)
    (hrequest : Request.ofHead head source remote = .ok request) :
    (route.destination request.url).path = forwardedPath head := by
  have hspecial : Url.isSpecial route.uri.scheme = true :=
    Url.isSpecial_of_web (Url.web_of_isWeb hweb)
  have hhosted : route.uri.isOpaque = false := by
    rw [Url.isWeb, Bool.and_eq_true, Url.hostText?] at hweb
    cases hhost : route.uri.host with
    | none =>
      rw [hhost] at hweb
      cases hweb.2
    | some host => simp [Url.isOpaque, hhost]
  have hkept : request.url.path.filter (!isLineBreak ·) = request.url.path := by
    rw [path_of_ofHead h hrequest]
    exact Url.filter_isLineBreak fun b hb =>
      Url.isLineBreak_of_pathSet b (Url.pathSet_of_mem_readPath b hb)
  rw [Route.destination, Route.destinationOf, Url.setQuery, Url.setPath]
  simp only [hhosted, hkept, hspecial, Bool.false_eq_true, if_false]
  rw [path_of_ofHead h hrequest, forwardedPath]

/-! ## Agreement -/

/-- The authority of a request is one where its URL is read: it is there, it ends where the target
begins, and no drive can follow it. -/
structure Request.Contained (head : Http.RequestHead) : Prop where
  scheme : (schemeText head).map Bytes.toLower ≠ Url.file
  nonempty : (authorityText head).filter (!isLineBreak ·) ≠ []
  bytes : ∀ b ∈ authorityText head, endsAuthority true b = false

/-- Only the host of a header can run into the path, and only a drive can follow a host that is
named by the target. -/
theorem Request.contained_of_authority {a : Bytes} (h : head.target.WellFormed)
    (ha : head.target.authority = some a)
    (hscheme : (schemeText head).map Bytes.toLower ≠ Url.file) : Contained head := by
  refine ⟨hscheme, ?_, ?_⟩
  · rw [filter_authorityText h ha]
    exact (h.authority a ha).1
  · rw [authorityText_of_some ha]
    exact fun b hb => (authority_bytes h ha b hb).1

/-- Of a contained request, the path is read of the target alone. -/
theorem forwardedPath_of_contained (h : head.target.WellFormed) (hc : Request.Contained head) :
    ∃ special, forwardedPath head =
      resolve true
        (resolve special (pathText (behindAuthority special head.target.pathAndQuery))) := by
  have hends : ∀ b, endsAuthority true b = false →
      Url.isSeparator true b = false ∧ endsAuthority false b = false := by
    grind [endsAuthority, Url.isSeparator]
  have hbytes : ∀ b ∈ (Request.authorityText head).filter (!isLineBreak ·),
      endsAuthority true b = false :=
    fun b hb => hc.bytes b (List.mem_of_mem_filter hb)
  rw [forwardedPath, readPath, if_neg hc.scheme, behindScheme_eq h]
  -- A special scheme skips slashes before the authority, which has none; another one keeps an empty
  -- path, which the route then makes a slash of.
  cases Url.isSpecial ((Request.schemeText head).map Bytes.toLower) with
  | true =>
    refine ⟨true, ?_⟩
    rw [if_pos rfl, dropWhile_eq_self, Url.behindAuthority_append hbytes]
    rw [List.head?_append_of_ne_nil _ hc.nonempty]
    exact fun b hb => (hends b (hbytes b (List.mem_of_mem_head? hb))).1
  | false =>
    refine ⟨false, ?_⟩
    rw [if_neg (by decide), Url.behindAuthority_append fun b hb => (hends b (hbytes b hb)).2]
    split
    · next hempty =>
      rw [List.isEmpty_iff.mp hempty]
      decide
    · rfl

/-- A rooted path is resolved, up to twice, and any other path becomes a slash. -/
theorem forwardedPath_cases (h : head.target.WellFormed) (hc : Request.Contained head) :
    (∃ special, head.target.path.head? = some 0x2F ∧
      forwardedPath head = resolve true (resolve special head.target.path)) ∨
    (head.target.path.head? ≠ some 0x2F ∧ forwardedPath head = [0x2F]) := by
  have hroot : ∀ special, resolve true (resolve special []) = [0x2F] ∧
      resolve true (resolve special [0x2F]) = [0x2F] := by
    intro special
    cases special <;> decide
  obtain ⟨special, hsent⟩ := forwardedPath_of_contained h hc
  rw [hsent, (read_pathAndQuery h special).2]
  rcases h.shownPath_cases with ⟨heq, hhead⟩ | ⟨hstar, hpath⟩ | ⟨hshown, hpath⟩
  · have hne : head.target.path ≠ [0x2A] := by
      intro hstar
      rw [hstar] at hhead
      cases hhead
    rw [heq, if_neg hne]
    exact .inl ⟨special, hhead, rfl⟩
  · rw [if_pos hstar, hpath]
    exact .inr ⟨by decide, (hroot special).1⟩
  · have hsent : resolve true (resolve special (if head.target.shownPath = [0x2A] then []
        else head.target.shownPath)) = [0x2F] := by
      rcases hshown with hshown | hshown
      · rw [hshown]
        exact (hroot special).1
      · rw [hshown]
        exact (hroot special).2
    rw [hsent]
    rcases hpath with hpath | hpath
    · rw [hpath]
      exact .inr ⟨by decide, rfl⟩
    · rw [hpath]
      exact .inl ⟨special, rfl, (hroot special).2.symm⟩

/-- A normal path is sent as it is. -/
theorem forwardedPath_of_isNormal (h : head.target.WellFormed) (hc : Request.Contained head)
    (hnormal : IsNormal head.target.path) : forwardedPath head = head.target.path := by
  rcases forwardedPath_cases h hc with ⟨special, -, hsent⟩ | ⟨hhead, -⟩
  · rw [hsent, Url.resolve_of_isNormal special hnormal, Url.resolve_of_isNormal true hnormal]
  · exact absurd hnormal.rooted hhead

/-- A path is normal if the narrowest pattern that accepts it also accepts what is sent. -/
theorem isNormal_of_accepts_mask (h : head.target.WellFormed) (hc : Request.Contained head)
    (haccepts : (Path.Pattern.ofText (Path.mask head.target.path)).accepts (forwardedPath head)) :
    IsNormal head.target.path := by
  have hne : head.target.path ≠ [] := by
    intro hempty
    rcases forwardedPath_cases h hc with ⟨_, hhead, -⟩ | ⟨-, hsent⟩
    · rw [hempty] at hhead
      cases hhead
    · rw [hempty, hsent] at haccepts
      exact absurd haccepts (by decide)
  have hbytes := Path.forall₂_of_accepts_mask hne haccepts
  rcases forwardedPath_cases h hc with ⟨special, hhead, hsent⟩ | ⟨hhead, hsent⟩
  · have hnormal : IsNormal (forwardedPath head) := hsent ▸ Url.isNormal_resolve _
    have hclean : ∀ b ∈ head.target.path, pathSet b = false ∧ b ≠ 0x5C := by
      intro b hb
      rcases Path.mem_of_accepts_mask hne haccepts b hb with rfl | rfl | rfl | hmem
      · decide
      · exact absurd (h.isPathByte_path _ hb) (by decide)
      · decide
      · exact hnormal.clean b hmem
    -- Nothing of the path is escaped, so it can only have lost dot segments.
    rw [hsent, Url.resolve_eq_of_clean hhead hclean special,
      Url.resolve_of_isNormal true (Url.isNormal_resolve _)] at hbytes
    exact Url.isNormal_of_length true hhead hclean hbytes.length_eq
  · -- A slash alone is accepted by the masks of slashes only.
    rw [hsent] at hbytes
    have hslashes := List.filter_eq_nil_iff.mp (List.forall₂_nil_right_iff.mp hbytes)
    obtain ⟨b, rest, hpath⟩ := List.exists_cons_of_ne_nil hne
    have hb := hslashes b (hpath ▸ List.mem_cons_self)
    rw [bne_iff_ne, not_not] at hb
    rw [hpath, hb] at hhead
    exact absurd rfl hhead

/-- **Routing and forwarding agree on normal paths.** The path that is sent is `forwardedPath`. If
the authority of the request is contained, every predicate that the path of the request has passed
accepts a normal path as it is sent; of any other path, some pattern accepts what is routed on and
rejects what is sent. -/
theorem destination_path_agrees {table : RoutingTable} {clock : Clock} {text : Bytes}
    {patterns : List Path.Pattern} (htarget : Http.Target.parse? text = some head.target)
    (hroute : table.find? clock head = .ok (some route)) (hweb : route.uri.isWeb = true)
    (hpath : Predicate.path patterns ∈ route.predicates)
    (hrequest : Request.ofHead head source remote = .ok request) :
    (route.destination request.url).path = forwardedPath head ∧
      (Request.Contained head →
        (IsNormal head.target.path →
          patterns.any (fun p => p.accepts (forwardedPath head)) = true) ∧
        (¬ IsNormal head.target.path →
          ∃ p : Path.Pattern, p.accepts head.target.path = true ∧
            p.accepts (forwardedPath head) = false)) := by
  have hformed := Http.Target.wellFormed_of_parse? htarget
  refine ⟨path_destination hweb hformed hrequest, fun hc => ⟨?_, ?_⟩⟩
  · intro hnormal
    rw [forwardedPath_of_isNormal hformed hc hnormal]
    have hpassed := Route.accepts_eq_true_iff.mp (RoutingTable.accepts_of_find? hroute) _ hpath
    exact Except.ok.inj hpassed
  · intro hnormal
    refine ⟨.ofText (Path.mask head.target.path), Path.accepts_mask_self _, ?_⟩
    rw [Bool.eq_false_iff]
    exact fun haccepts => hnormal (isNormal_of_accepts_mask hformed hc haccepts)

/-! ## A route for a public directory -/

/-- A route for everything under `/public`. -/
def publicRoute : Route where
  id := "public"
  uri := { scheme := Url.http, host := some (.domain (Bytes.ofString "backend")), path := [0x2F] }
  predicates := [.path [.ofText (Bytes.ofString "/public/**")]]

theorem accepts_publicRoute {r : Http.RequestHead}
    (h : (Path.Pattern.ofText (Bytes.ofString "/public/**")).accepts r.target.path = true) :
    publicRoute.accepts default r = .ok true := by
  refine Route.accepts_eq_true_iff.mpr (List.forall_mem_singleton.mpr ?_)
  simp [Predicate.test, pure, Except.pure, h]

/-- The head of a request for a path. -/
def headFor (path : String) : Http.RequestHead where
  target := { rawPath := Bytes.ofString path }
  headers := [⟨Http.host, Bytes.ofString "gateway"⟩]

theorem contained_headFor (path : String) : Request.Contained (headFor path) := by
  have hname : Request.authorityText (headFor path) = Bytes.ofString "gateway" := by
    simp only [Request.authorityText, headFor]
    decide
  have hbytes : (Bytes.ofString "gateway").all fun b => !endsAuthority true b := by decide
  refine ⟨?_, ?_, ?_⟩
  · simp only [Request.schemeText, headFor]
    decide
  · rw [hname]
    decide
  · rw [hname]
    exact fun b hb => by simpa using List.all_eq_true.mp hbytes b hb

/-- A host that is not contained takes the place of the path. -/
example :
    let host : Http.Field := ⟨Http.host, Bytes.ofString "h/x?"⟩
    forwardedPath { headFor "/public/a" with headers := [host] } = Bytes.ofString "/x" := by
  decide

/-- A normal path under `/public` arrives as it was routed. -/
theorem destination_path_agrees_publicRoute :
    ∃ request, Request.ofHead (headFor "/public/a") (.ofBytes []) none = .ok request ∧
      (publicRoute.destination request.url).path = Bytes.ofString "/public/a" ∧
      [Path.Pattern.ofText (Bytes.ofString "/public/**")].any
        (fun p => p.accepts (publicRoute.destination request.url).path) = true := by
  obtain ⟨request, hrequest⟩ :=
    exists_ofHead (headFor "/public/a") (.ofBytes []) none (by decide +kernel)
  have htarget : Http.Target.parse? (Bytes.ofString "/public/a") =
      some (headFor "/public/a").target := by decide +kernel
  have hroute : RoutingTable.find? ⟨[publicRoute]⟩ default (headFor "/public/a") =
      .ok (some publicRoute) :=
    RoutingTable.find?_of_accepts (List.forall_mem_nil _) (accepts_publicRoute (by cbv))
  have hnormal : IsNormal (headFor "/public/a").target.path := by decide
  have hagree := destination_path_agrees htarget hroute (by decide) List.mem_cons_self hrequest
  refine ⟨request, hrequest, ?_, ?_⟩
  · rw [hagree.1]
    decide
  · rw [hagree.1]
    exact (hagree.2 (contained_headFor _)).1 hnormal

/-- A path that leaves `/public` is routed as one under it and sent as one outside of it. -/
theorem destination_path_rejected_publicRoute :
    Http.Target.parse? (Bytes.ofString "/public/../admin") =
      some (headFor "/public/../admin").target ∧
    RoutingTable.find? ⟨[publicRoute]⟩ default (headFor "/public/../admin") = .ok (some publicRoute) ∧
    Predicate.path [.ofText (Bytes.ofString "/public/**")] ∈ publicRoute.predicates ∧
    ∃ request, Request.ofHead (headFor "/public/../admin") (.ofBytes []) none = .ok request ∧
      (publicRoute.destination request.url).path = Bytes.ofString "/admin" ∧
      [Path.Pattern.ofText (Bytes.ofString "/public/**")].any
        (fun p => p.accepts (publicRoute.destination request.url).path) = false := by
  obtain ⟨request, hrequest⟩ :=
    exists_ofHead (headFor "/public/../admin") (.ofBytes []) none (by decide +kernel)
  have htarget : Http.Target.parse? (Bytes.ofString "/public/../admin") =
      some (headFor "/public/../admin").target := by decide +kernel
  have hsent : (publicRoute.destination request.url).path = Bytes.ofString "/admin" := by
    rw [path_destination (by decide) (Http.Target.wellFormed_of_parse? htarget) hrequest]
    decide
  have hroute : RoutingTable.find? ⟨[publicRoute]⟩ default (headFor "/public/../admin") =
      .ok (some publicRoute) :=
    RoutingTable.find?_of_accepts (List.forall_mem_nil _) (accepts_publicRoute (by cbv))
  refine ⟨htarget, hroute, List.mem_cons_self, request, hrequest, hsent, ?_⟩
  rw [hsent]
  cbv

end Gatehouse
