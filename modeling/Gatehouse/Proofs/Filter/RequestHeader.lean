import Gatehouse.Gateway
import Gatehouse.Proofs.Filter.Chain
import Gatehouse.Proofs.Http.Header

/-!
# Request headers on their way to the backend

A header that the last filter to edit it has set reaches the backend with that value and no other,
unless the request lists its name in `connection`: what a client lists there is taken out after the
filters have run, so that it can take out what a filter has set.
-/

namespace Gatehouse

open Http (Headers HeaderName)

variable {name other : HeaderName} {value : Bytes}

namespace Filter

/-- Whether a filter is one of those that come with the gateway. -/
def IsBuiltIn : Filter → Prop
  | .custom .. => False
  | _ => True

/-- Whether a filter edits a header of requests. -/
def EditsRequest (name : HeaderName) : Filter → Prop
  | .header .request other _ => other = name
  | _ => False

theorem values_apply_of_ne (edit : HeaderEdit) {hs : Headers} (h : other ≠ name) :
    (edit.apply other hs).values name = hs.values name := by
  cases edit with
  | add value => rw [HeaderEdit.apply, Headers.values_append, if_neg h, List.append_nil]
  | set value => exact Headers.values_set_of_ne h
  | remove => exact Headers.values_remove_of_ne h

/-- What is kept of the first URL is no part of the request. -/
theorem request_keepFirstUrl (x : Exchange) : (keepFirstUrl x).request = x.request := by
  rw [keepFirstUrl]
  split <;> rfl

/-- A path edit leaves the headers of a request alone. -/
theorem headers_replacePath (pattern : Regex) (replacement : List Char) (x : Exchange) :
    (replacePath pattern replacement x).request.headers = x.request.headers := by
  rw [replacePath]
  split <;> simp only [request_keepFirstUrl]

/-- A logger leaves all of an exchange alone but the body of the request. -/
theorem exists_logRequest_eq (w : World) (x : Exchange) (level : Level) (maxBody : Nat) :
    ∃ body, (logRequest w x level maxBody).2.2 =
      { x with request := { x.request with body } } := by
  rw [logRequest]
  split
  · exact ⟨x.request.body, rfl⟩
  · -- however the capture ends, only the body has changed
    dsimp only
    split <;> exact ⟨_, rfl⟩

theorem headers_logRequest (w : World) (x : Exchange) (level : Level) (maxBody : Nat) :
    (logRequest w x level maxBody).2.2.request.headers = x.request.headers := by
  obtain ⟨body, hx⟩ := exists_logRequest_eq w x level maxBody
  rw [hx]

/-- A filter of the gateway leaves the values of a header alone that it does not edit. -/
theorem values_pre {f : Filter} (hbuiltIn : f.IsBuiltIn) (hedits : ¬ f.EditsRequest name)
    (w : World) (x : Exchange) :
    (f.pre w x).2.2.request.headers.values name = x.request.headers.values name := by
  cases f with
  | header side other edit =>
    cases side with
    | request => exact values_apply_of_ne edit hedits
    | response => rfl
  | pathEdit pattern replacement =>
    exact congrArg (Headers.values · name) (headers_replacePath pattern replacement x)
  | logger level maxBody =>
    exact congrArg (Headers.values · name) (headers_logRequest w x level maxBody)
  | rateLimit place rate burst key =>
    simp only [pre]
    split <;> rfl
  | custom label before after => exact hbuiltIn.elim

/-- Filters of the gateway leave the values of a header alone that none of them edits. -/
theorem Ran.values_request {fs ran : List Filter} {stop : Option (Filter × Fault)}
    {w w₁ : World} {x x₁ : Exchange} (h : Ran pre .pre fs w x ran stop w₁ x₁)
    (hbuiltIn : ∀ f ∈ fs, f.IsBuiltIn) (hedits : ∀ f ∈ fs, ¬ f.EditsRequest name) :
    x₁.request.headers.values name = x.request.headers.values name :=
  h.preserves (fun y => y.request.headers.values name = x.request.headers.values name)
    (fun f hf w y hy => (values_pre (hbuiltIn f hf) (hedits f hf) w y).trans hy) rfl

/-- Behind the filter that is the last to edit a header and sets it, the header has the value that it
was set to. -/
theorem Ran.values_of_set {before after ran : List Filter} {w w' : World} {x x' : Exchange}
    (h : Ran pre .pre (before ++ .header .request name (.set value) :: after) w x ran none w' x')
    (hbuiltIn : ∀ f ∈ after, f.IsBuiltIn) (hlast : ∀ f ∈ after, ¬ f.EditsRequest name) :
    x'.request.headers.values name = [value] := by
  obtain ⟨w₁, x₁, -, ran', hrest⟩ := h.append
  cases hrest with
  | next hset hafter =>
    rw [hafter.values_request hbuiltIn hlast]
    obtain ⟨v, hpre, -⟩ := exists_of_runHook hset
    cases hpre
    exact Headers.values_set_self _ name value

end Filter

/-- A request loses the headers that its `connection` lists, and those of one hop. -/
theorem Exchange.values_outgoing {x x' : Exchange} {o : Outgoing} (h : x.outgoing = (.ok o, x'))
    (hhost : name ≠ Http.host) :
    o.headers.values name =
      if name ∈ Http.listedNames x.request.headers ∨ name ∈ Http.hopByHop then []
      else x.request.headers.values name := by
  have hheaders : o.headers = Http.stripHopByHop (x.request.headers.remove Http.host) := by
    rw [outgoing] at h
    dsimp only at h
    split at h
    · cases h
      rfl
    · cases h
  have hlisted : Http.listedNames (x.request.headers.remove Http.host) =
      Http.listedNames x.request.headers :=
    Http.listedNames_congr (Headers.values_remove_of_ne (by decide))
  rw [hheaders, Http.values_stripHopByHop, hlisted, Headers.values_remove_of_ne hhost.symm]

theorem Exchange.exists_outgoing {x : Exchange}
    (h : (Http.Target.parse? (Route.destinationOf x.target x.request.url).render).isSome = true) :
    ∃ o x', x.outgoing = (.ok o, x') := by
  obtain ⟨target, htarget⟩ := Option.isSome_iff_exists.mp h
  rw [outgoing]
  simp only [htarget]
  exact ⟨_, _, rfl⟩

/-- **A header that the filters set reaches the backend unless `connection` lists it.** Where the last
filter that edits a header sets it, the backend gets that one value if the request does not list the
name in `connection`, and no value if it does. What is listed there is up to the client as long as no
filter edits `connection`. -/
theorem setRequestHeader_reaches_backend {before after : List Filter} {w w' : World}
    {x x' x'' : Exchange} {o : Outgoing}
    (hname : name ≠ Http.host ∧ name ∉ Http.hopByHop)
    (hbuiltIn : ∀ f ∈ before ++ .header .request name (.set value) :: after, f.IsBuiltIn)
    (hlast : ∀ f ∈ after, ¬ f.EditsRequest name)
    (hpre : Filter.preAll (before ++ .header .request name (.set value) :: after) w x =
      (.passed, w', x'))
    (hout : x'.outgoing = (.ok o, x'')) :
    (o.headers.values name =
      if name ∈ Http.listedNames x'.request.headers then [] else [value]) ∧
    ((∀ f ∈ before ++ .header .request name (.set value) :: after,
        ¬ f.EditsRequest Http.connection) →
      Http.listedNames x'.request.headers = Http.listedNames x.request.headers) := by
  have hran := Filter.ran_of_runHooks hpre
  refine ⟨?_, fun hconnection => ?_⟩
  · have hset : x'.request.headers.values name = [value] :=
      hran.values_of_set (fun f hf => hbuiltIn f (by simp [hf])) hlast
    rw [Exchange.values_outgoing hout hname.1, hset]
    simp only [hname.2, or_false]
  · exact Http.listedNames_congr (hran.values_request hbuiltIn hconnection)

/-! ## A filter that tells the backend who the user is -/

/-- The exchange of a request with some headers, on a route to `http://backend/`. -/
def Exchange.withHeaders (headers : Headers) : Exchange where
  routeId := "users"
  target := { scheme := Url.http, host := some (.domain (Bytes.ofString "backend")), path := [0x2F] }
  request := {
    url := { scheme := Url.http, host := some (.domain (Bytes.ofString "gateway")), path := [0x2F] }
    headers }

/-- The header that names the user. -/
def userHeader : HeaderName := .literal "x-user"

/-- The filter that says that the user is `alice`. -/
def setUser : Filter := .header .request userHeader (.set (Bytes.ofString "alice"))

/-- A user whom the client names is replaced. -/
theorem setRequestHeader_reaches_backend_alice :
    let x := Exchange.withHeaders
      [⟨userHeader, Bytes.ofString "mallory"⟩, ⟨Http.connection, Bytes.ofString "close"⟩]
    ∃ w' x' o x'', Filter.preAll [setUser] default x = (.passed, w', x') ∧
      x'.outgoing = (.ok o, x'') ∧ o.headers.values userHeader = [Bytes.ofString "alice"] := by
  intro x
  have hpre : Filter.preAll ([] ++ .header .request userHeader (.set (Bytes.ofString "alice")) :: [])
      default x = (.passed, (Filter.preAll [setUser] default x).2) := rfl
  obtain ⟨o, x'', hout⟩ :=
    @Exchange.exists_outgoing (Filter.preAll [setUser] default x).2.2 (by decide +kernel)
  have hbuiltIn : ∀ f ∈ [] ++ [setUser], f.IsBuiltIn := by
    intro f hf
    rw [List.mem_singleton.mp hf]
    trivial
  obtain ⟨hvalues, -⟩ := setRequestHeader_reaches_backend (by decide) hbuiltIn nofun hpre hout
  refine ⟨_, _, o, x'', hpre, hout, ?_⟩
  rw [hvalues, if_neg (by decide)]

/-- A client that lists the header in `connection` keeps the user from the backend. -/
theorem setRequestHeader_lost_to_connection :
    let x := Exchange.withHeaders [⟨Http.connection, Bytes.ofString "x-user"⟩]
    userHeader ≠ Http.host ∧ userHeader ∉ Http.hopByHop ∧ setUser.IsBuiltIn ∧
    ∃ w' x' o x'', Filter.preAll [setUser] default x = (.passed, w', x') ∧
      x'.outgoing = (.ok o, x'') ∧ o.headers.values userHeader = [] := by
  intro x
  obtain ⟨o, x'', hout⟩ :=
    @Exchange.exists_outgoing (Filter.preAll [setUser] default x).2.2 (by decide +kernel)
  refine ⟨by decide, by decide, trivial, _, _, o, x'', rfl, hout, ?_⟩
  rw [Exchange.values_outgoing hout (by decide), if_pos (.inl (by decide))]

end Gatehouse
