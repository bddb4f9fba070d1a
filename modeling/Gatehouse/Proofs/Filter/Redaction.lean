import Mathlib.Data.List.Forall2
import Gatehouse.Proofs.Filter.Chain
import Gatehouse.Proofs.Filter.RequestHeader

/-!
# What loggers show of secret headers

To redact is to blank the values of the secret headers, wherever they occur: in the headers of a message,
in an exchange, and in what a header filter sets. A chain of loggers, header filters and path edits
commutes with that (`runHooks_redacted`): redacted, it does to a redacted exchange what it does to the
exchange, and logs the same. So what it logs is the same for all exchanges that are redacted to the same
one, that is, for those that differ in values of secret headers only.
-/

namespace Gatehouse

open Http (Field Headers HeaderName)

/-! ## Redacting -/

/-- A field without its value if it is secret. -/
def Http.Field.redacted (f : Field) : Field :=
  if Filter.secretHeaders.contains f.name then { f with value := [] } else f

/-- Headers without the values of those that are secret. -/
def Http.Headers.redacted (hs : Headers) : Headers := hs.map Field.redacted

/-- An edit of a header, without the value that it gives to a secret one. -/
def HeaderEdit.redacted (name : HeaderName) : HeaderEdit → HeaderEdit
  | .add value => .add (Field.redacted ⟨name, value⟩).value
  | .set value => .set (Field.redacted ⟨name, value⟩).value
  | .remove => .remove

/-- A response without the values of secret headers. -/
def Response.redacted (r : Response) : Response := { r with headers := Headers.redacted r.headers }

/-- An exchange without the values of secret headers. -/
def Exchange.redacted (x : Exchange) : Exchange :=
  { x with
    request := { x.request with headers := Headers.redacted x.request.headers }
    response := x.response.map Response.redacted }

/-- What loggers see of a world. -/
def World.logged (w : World) : World :=
  { (default : World) with
    now := w.now, gone := w.gone, threshold := w.threshold, log := w.log, hooks := w.hooks }

/-- The end of a hook, as far as it is not secret. -/
def HookResult.redacted (r : HookResult) : HookResult := (r.1, r.2.1.logged, r.2.2.redacted)

namespace Filter

/-- A filter without the value that it gives to a secret header. -/
def redacted : Filter → Filter
  | .header side name edit => .header side name (edit.redacted name)
  | f => f

/-- Whether a filter looks at no value of a header, unless it logs it. -/
def IsDiscreet : Filter → Prop
  | .header .. | .pathEdit .. | .logger .. => True
  | .rateLimit .. | .custom .. => False

end Filter

variable {hs hs' : Headers} {name : HeaderName} {value : Bytes} {f f' : Field} {w w' : World}
  {x x' : Exchange} {r r' : Response} {level : Level} {maxBody : Nat} {chain chain' : List Filter}

/-! ## Headers -/

namespace Http

theorem Field.redacted_of_secret (h : f.name ∈ Filter.secretHeaders) : f.redacted = ⟨f.name, []⟩ := by
  rw [redacted, if_pos (List.contains_iff_mem.mpr h)]

theorem Field.redacted_of_open (h : f.name ∉ Filter.secretHeaders) : f.redacted = f := by
  rw [redacted, if_neg (mt List.contains_iff_mem.mp h)]

theorem Field.redacted_eq (f : Field) : f.redacted = ⟨f.name, f.redacted.value⟩ := by
  rw [redacted]
  split <;> rfl

@[simp] theorem Field.name_redacted (f : Field) : f.redacted.name = f.name := by
  rw [redacted_eq]

theorem Field.redacted_eq_iff : f.redacted = f'.redacted ↔
    f.name = f'.name ∧ (f.name ∈ Filter.secretHeaders ∨ f.value = f'.value) := by
  constructor
  · intro h
    have hname : f.name = f'.name := by rw [← f.name_redacted, h, f'.name_redacted]
    refine ⟨hname, or_iff_not_imp_left.mpr fun hopen => ?_⟩
    rw [redacted_of_open hopen, redacted_of_open (hname ▸ hopen)] at h
    rw [h]
  · rintro ⟨hname, hsecret | hvalue⟩
    · rw [redacted_of_secret hsecret, redacted_of_secret (hname ▸ hsecret), hname]
    · have heq : f = f' := by
        cases f
        cases f'
        exact congr (congrArg Field.mk hname) hvalue
      rw [heq]

namespace Headers

/-- Headers are redacted to the same ones if they differ in values of secret headers only. -/
theorem redacted_eq_iff : hs.redacted = hs'.redacted ↔
    List.Forall₂ (fun f f' => f.name = f'.name ∧ (f.name ∈ Filter.secretHeaders ∨ f.value = f'.value))
      hs hs' := by
  rw [redacted, redacted, ← List.forall₂_eq_eq_eq, List.forall₂_map_left_iff,
    List.forall₂_map_right_iff]
  simp only [Field.redacted_eq_iff]

theorem redacted_append (hs : Headers) (name : HeaderName) (value : Bytes) :
    (hs.append name value).redacted = hs.redacted.append name (Field.redacted ⟨name, value⟩).value := by
  rw [append, redacted, List.map_append, List.map_singleton, Field.redacted_eq]
  rfl

theorem redacted_remove (hs : Headers) (name : HeaderName) :
    (hs.remove name).redacted = hs.redacted.remove name := by
  simp only [redacted, remove, List.filter_map, Function.comp_def, Field.name_redacted]

theorem redacted_foldl_remove (names : List HeaderName) (hs : Headers) :
    (names.foldl remove hs).redacted = names.foldl remove hs.redacted :=
  (List.foldl_hom redacted fun hs name => (redacted_remove hs name).symm).symm

theorem values_redacted (hs : Headers) (h : name ∉ Filter.secretHeaders) :
    hs.redacted.values name = hs.values name := by
  rw [values, redacted, List.filterMap_map]
  refine List.filterMap_congr fun f _ => ?_
  rw [Function.comp, Field.name_redacted]
  by_cases hname : f.name = name
  · rw [if_pos hname, if_pos hname, Field.redacted_of_open (hname ▸ h)]
  · rw [if_neg hname, if_neg hname]

end Headers

theorem stripHopByHop_redacted (hs : Headers) :
    stripHopByHop hs.redacted = (stripHopByHop hs).redacted := by
  have hlisted : listedNames hs.redacted = listedNames hs :=
    listedNames_congr (hs.values_redacted (by decide))
  rw [stripHopByHop, hlisted, stripHopByHop, Headers.redacted_foldl_remove]

end Http

theorem HeaderEdit.apply_redacted (edit : HeaderEdit) (name : HeaderName) (hs : Headers) :
    (edit.redacted name).apply name hs.redacted = (edit.apply name hs).redacted := by
  cases edit with
  | add value => exact (hs.redacted_append name value).symm
  | set value =>
    rw [apply, Headers.set, Headers.redacted_append, Headers.redacted_remove]
    rfl
  | remove => exact (hs.redacted_remove name).symm

theorem Exchange.answeredBy_redacted (x : Exchange) (r : Response) :
    x.redacted.answeredBy r.redacted = (x.answeredBy r).redacted := by
  simp only [answeredBy, redacted, Response.redacted, Option.map_some, Http.stripHopByHop_redacted]

/-- An exchange hands its body on, whether or not there is a place to send it to. -/
theorem Exchange.snd_outgoing (x : Exchange) :
    x.outgoing.2 = { x with request := { x.request with body := x.request.body.forward.2 } } := by
  rw [outgoing]
  dsimp only
  split <;> rfl

theorem Exchange.outgoing_redacted (x : Exchange) :
    x.redacted.outgoing.2 = x.outgoing.2.redacted := by
  rw [snd_outgoing, snd_outgoing]
  rfl

/-! ## Logging -/

namespace Filter

/-- The value of a secret header is not shown. -/
theorem shownValue_redacted (f : Field) : shownValue f.redacted = shownValue f := by
  by_cases h : f.name ∈ secretHeaders
  · rw [shownValue, shownValue, Field.name_redacted, if_pos (List.contains_iff_mem.mpr h),
      if_pos (List.contains_iff_mem.mpr h)]
  · rw [Field.redacted_of_open h]

theorem shownHeaders_redacted (hs : Headers) : shownHeaders hs.redacted = shownHeaders hs := by
  have hsorted : hs.redacted.sorted = hs.sorted.map Field.redacted := by
    -- the order is that of the names, which redacting leaves alone
    rw [Headers.sorted, Headers.sorted, Headers.redacted, List.map_mergeSort]
    simp only [Field.name_redacted, implies_true]
  rw [shownHeaders, shownHeaders, hsorted, List.map_map]
  refine List.map_congr_left fun f _ => ?_
  rw [Function.comp, Field.name_redacted, shownValue_redacted]

theorem requestEvent_redacted (x : Exchange) (level : Level) (maxBody : Nat) :
    requestEvent x.redacted level maxBody = requestEvent x level maxBody := by
  rw [requestEvent, requestEvent, ← shownHeaders_redacted x.request.headers]
  rfl

theorem responseEvent_redacted (x : Exchange) (r : Response) (level : Level) (maxBody : Nat) :
    responseEvent x.redacted r.redacted level maxBody = responseEvent x r level maxBody := by
  rw [responseEvent, responseEvent, ← shownHeaders_redacted r.headers]
  rfl

theorem logged_emit (w : World) (e : Event) : (w.emit e).logged = w.logged.emit e := by
  have hthreshold : w.logged.threshold = w.threshold := rfl
  rw [World.emit, World.emit, hthreshold]
  split <;> rfl

/-- A logger does to a redacted exchange what it does to the exchange, and logs the same. -/
theorem logRequest_redacted (w : World) (x : Exchange) (level : Level) (maxBody : Nat) :
    logRequest w.logged x.redacted level maxBody = (logRequest w x level maxBody).redacted := by
  have hlogs : logs w.logged x.redacted level = logs w x level := rfl
  rw [logRequest, logRequest, hlogs]
  cases logs w x level with
  | false => rfl
  | true =>
    have hrun : x.redacted.scope.run w.logged.now w.logged.gone x.redacted.request.body
        (x.redacted.request.body.capture w.logged.now) =
      x.scope.run w.now w.gone x.request.body (x.request.body.capture w.now) := rfl
    simp only [hrun]
    obtain ⟨ended, body⟩ := x.scope.run w.now w.gone x.request.body (x.request.body.capture w.now)
    cases ended with
    | givenUp => rfl
    | done now result =>
      cases result with
      | error e => rfl
      | ok =>
        -- the event is that of the exchange with its body captured
        let y : Exchange := { x with request := { x.request with body } }
        show finish ((w.moveTo now).logged.emit (requestEvent y.redacted level maxBody))
          y.redacted = _
        rw [requestEvent_redacted, ← logged_emit]
        rfl

theorem logResponse_redacted (w : World) (x : Exchange) (level : Level) (maxBody : Nat) :
    logResponse w.logged x.redacted level maxBody = (logResponse w x level maxBody).redacted := by
  have hlogs : logs w.logged x.redacted level = logs w x level := rfl
  rw [logResponse, logResponse, hlogs]
  cases logs w x level with
  | false => rfl
  | true =>
    cases hresponse : x.response with
    | none =>
      have hredacted : x.redacted.response = none := by rw [Exchange.redacted, hresponse]; rfl
      simp only [hredacted]
      rfl
    | some r =>
      have hredacted : x.redacted.response = some r.redacted := by
        rw [Exchange.redacted, hresponse]
        rfl
      have hrun : x.redacted.scope.run w.logged.now w.logged.gone r.redacted.body
          (r.redacted.body.capture w.logged.now) =
        x.scope.run w.now w.gone r.body (r.body.capture w.now) := rfl
      simp only [hredacted, hrun]
      obtain ⟨ended, body⟩ := x.scope.run w.now w.gone r.body (r.body.capture w.now)
      cases ended with
      | givenUp => rfl
      | done now result =>
        cases result with
        | error e => rfl
        | ok =>
          let r' : Response := { r with body }
          let y : Exchange := { x with response := some r' }
          show finish ((w.moveTo now).logged.emit
            (responseEvent y.redacted r'.redacted level maxBody)) y.redacted = _
          rw [responseEvent_redacted, ← logged_emit]
          rfl

/-! ## Chains -/

theorem name_redacted (f : Filter) : f.redacted.name = f.name := by
  cases f with
  | header side name edit => cases side <;> cases edit <;> rfl
  | _ => rfl

/-- A path edit does the same whatever the values of headers. -/
theorem replacePath_redacted (pattern : Regex) (replacement : List Char) (x : Exchange) :
    replacePath pattern replacement x.redacted = (replacePath pattern replacement x).redacted := by
  have hkept : keepFirstUrl x.redacted = (keepFirstUrl x).redacted := by
    simp only [keepFirstUrl, Exchange.redacted]
    split <;> rfl
  simp only [replacePath, hkept]
  simp only [Exchange.redacted]
  split <;> rfl

theorem pre_redacted {f : Filter} (h : f.IsDiscreet) (w : World) (x : Exchange) :
    f.redacted.pre w.logged x.redacted = (f.pre w x).redacted := by
  cases f with
  | header side name edit =>
    cases side with
    | request =>
      show finish w.logged { x.redacted with request := { x.redacted.request with
        headers := (edit.redacted name).apply name (Headers.redacted x.request.headers) } } = _
      rw [HeaderEdit.apply_redacted]
      rfl
    | response => rfl
  | pathEdit pattern replacement =>
    show finish w.logged (replacePath pattern replacement x.redacted) = _
    rw [replacePath_redacted]
    rfl
  | logger level maxBody => exact logRequest_redacted w x level maxBody
  | rateLimit | custom => exact h.elim

theorem post_redacted {f : Filter} (h : f.IsDiscreet) (w : World) (x : Exchange) :
    f.redacted.post w.logged x.redacted = (f.post w x).redacted := by
  cases f with
  | header side name edit =>
    cases side with
    | request => rfl
    | response =>
      have hresponse : x.redacted.response.map (fun r =>
          { r with headers := (edit.redacted name).apply name r.headers }) =
        (x.response.map fun r => { r with headers := edit.apply name r.headers }).map
          Response.redacted := by
        rw [Exchange.redacted, Option.map_map, Option.map_map]
        refine congrArg (Option.map · x.response) (funext fun r => ?_)
        simp only [Function.comp, Response.redacted, HeaderEdit.apply_redacted]
      show finish w.logged { x.redacted with response := x.redacted.response.map _ } = _
      rw [hresponse]
      rfl
  | pathEdit pattern replacement => rfl
  | logger level maxBody => exact logResponse_redacted w x level maxBody
  | rateLimit | custom => exact h.elim

theorem runHook_redacted {hook : Filter → World → Exchange → HookResult} {f : Filter}
    (hhook : ∀ w x, hook f.redacted w.logged x.redacted = (hook f w x).redacted)
    (event : String → Hook) (w : World) (x : Exchange) :
    runHook hook event f.redacted w.logged x.redacted = (runHook hook event f w x).redacted := by
  have hnoted : w.logged.note (event f.name) = (w.note (event f.name)).logged := rfl
  rw [runHook, name_redacted, hnoted, hhook]
  rfl

/-- Redacted, a chain does to a redacted exchange what it does to the exchange, and logs the same. -/
theorem runHooks_redacted {hook : Filter → World → Exchange → HookResult}
    (hhook : ∀ f ∈ chain, ∀ w x, hook f.redacted w.logged x.redacted = (hook f w x).redacted)
    (event : String → Hook) (wrap : String → Error → Error) (w : World) (x : Exchange) :
    runHooks hook event wrap (chain.map redacted) w.logged x.redacted =
      (runHooks hook event wrap chain w x).redacted := by
  induction chain generalizing w x with
  | nil => rfl
  | cons f chain ih =>
    have hfirst := runHook_redacted (hhook f List.mem_cons_self) event w x
    rw [List.map_cons, runHooks, runHooks, hfirst, name_redacted]
    obtain ⟨ended, w, x⟩ := runHook hook event f w x
    cases ended with
    | failed | panicked | givenUp => rfl
    | passed => exact ih (fun g hg => hhook g (List.mem_cons_of_mem _ hg)) w x

theorem preAll_redacted (h : ∀ f ∈ chain, f.IsDiscreet) (w : World) (x : Exchange) :
    preAll (chain.map redacted) w.logged x.redacted = (preAll chain w x).redacted :=
  runHooks_redacted (fun f hf => pre_redacted (h f hf)) _ _ w x

theorem postAll_redacted (h : ∀ f ∈ chain, f.IsDiscreet) (w : World) (x : Exchange) :
    postAll (chain.map redacted) w.logged x.redacted = (postAll chain w x).redacted := by
  rw [postAll, ← List.map_reverse]
  exact runHooks_redacted (fun f hf => post_redacted (h f (List.mem_reverse.mp hf))) _ _ w x

theorem isDiscreet_redacted {f : Filter} : f.redacted.IsDiscreet ↔ f.IsDiscreet := by
  cases f <;> exact Iff.rfl

/-- **No log line depends on the value of a secret header.** Let a chain of loggers, header filters and path
edits, or two that differ in what they give to secret headers, be run on two exchanges that differ in
values of secret headers only, and then on their responses, which differ in no more. Then the hooks before
the requests end alike and log the same, and so do those after the responses. -/
theorem logs_of_redacted_eq (hdiscreet : ∀ f ∈ chain, f.IsDiscreet)
    (hchain : chain.map redacted = chain'.map redacted) (hw : w.logged = w'.logged)
    (hx : x.redacted = x'.redacted) :
    (preAll chain w x).1 = (preAll chain' w' x').1 ∧
    (preAll chain w x).2.1.log = (preAll chain' w' x').2.1.log ∧
    ∀ (u u' : World) (r r' : Response), u.logged = u'.logged → r.redacted = r'.redacted →
      let y := (preAll chain w x).2.2.outgoing.2.answeredBy r
      let y' := (preAll chain' w' x').2.2.outgoing.2.answeredBy r'
      (postAll chain u y).1 = (postAll chain' u' y').1 ∧
      (postAll chain u y).2.1.log = (postAll chain' u' y').2.1.log := by
  -- both chains are of the same filters, up to what they give to secret headers
  have hdiscreet' : ∀ f ∈ chain', f.IsDiscreet := by
    intro f hf
    have hmem : f.redacted ∈ chain.map redacted := hchain ▸ List.mem_map_of_mem hf
    obtain ⟨g, hg, heq⟩ := List.mem_map.mp hmem
    exact isDiscreet_redacted.mp (heq ▸ isDiscreet_redacted.mpr (hdiscreet g hg))
  have hpre : (preAll chain w x).redacted = (preAll chain' w' x').redacted := by
    rw [← preAll_redacted hdiscreet, ← preAll_redacted hdiscreet', hchain, hw, hx]
  refine ⟨congrArg (·.1) hpre, congrArg (·.2.1.log) hpre, fun u u' r r' hu hr => ?_⟩
  have hleft : (preAll chain w x).2.2.redacted = (preAll chain' w' x').2.2.redacted :=
    congrArg (·.2.2) hpre
  intro y y'
  have hy : y.redacted = y'.redacted := by
    rw [← Exchange.answeredBy_redacted, ← Exchange.answeredBy_redacted, ← Exchange.outgoing_redacted,
      ← Exchange.outgoing_redacted, hleft, hr]
  have hpost : (postAll chain u y).redacted = (postAll chain' u' y').redacted := by
    rw [← postAll_redacted hdiscreet, ← postAll_redacted hdiscreet', hchain, hu, hy]
  exact ⟨congrArg (·.1) hpost, congrArg (·.2.1.log) hpost⟩

/-- The header `authorization`. -/
def authorization : HeaderName := .literal "authorization"

/-- The header `set-cookie`. -/
def setCookie : HeaderName := .literal "set-cookie"

/-- Requests that differ in their credentials are logged alike, before and behind a filter that adds to the
credentials, and so are responses that differ in their cookies. -/
theorem logs_of_redacted_eq_credentials :
    let trace : Field := ⟨.literal "x-trace", [0xFF]⟩
    let x := Exchange.withHeaders [⟨authorization, [0x31]⟩, trace, ⟨authorization, []⟩]
    let x' := Exchange.withHeaders [⟨authorization, [0x32]⟩, trace, ⟨authorization, [0x80]⟩]
    let r : Response := { headers := [⟨setCookie, [0x31]⟩] }
    let r' : Response := { headers := [⟨setCookie, [0x32]⟩] }
    let w : World := { (default : World) with threshold := some .debug }
    let chain : List Filter := [.logger .info 16, .header .request authorization (.add [0x33]),
      .header .response setCookie (.set [0x34]), .logger .debug 0]
    HeaderName.ofString? "Authorization" = some authorization ∧
    (preAll chain w x).2.1.log = (preAll chain w x').2.1.log ∧
    (preAll chain w x).2.1.log.length = 2 ∧
    (postAll chain w ((preAll chain w x).2.2.outgoing.2.answeredBy r)).2.1.log =
      (postAll chain w ((preAll chain w x').2.2.outgoing.2.answeredBy r')).2.1.log ∧
    (postAll chain w ((preAll chain w x).2.2.outgoing.2.answeredBy r)).2.1.log.length = 2 := by
  intro trace x x' r r' w chain
  have hdiscreet : ∀ f ∈ chain, f.IsDiscreet := by
    simp [chain, IsDiscreet]
  have hrequest : Headers.redacted x.request.headers = Headers.redacted x'.request.headers :=
    Headers.redacted_eq_iff.mpr
      (.cons ⟨rfl, .inl (by decide)⟩ (.cons ⟨rfl, .inr rfl⟩ (.cons ⟨rfl, .inl (by decide)⟩ .nil)))
  have hresponse : Headers.redacted r.headers = Headers.redacted r'.headers :=
    Headers.redacted_eq_iff.mpr (.cons ⟨rfl, .inl (by decide)⟩ .nil)
  have hx : x.redacted = x'.redacted := by
    rw [Exchange.redacted, Exchange.redacted, hrequest]
    rfl
  have hr : r.redacted = r'.redacted := by
    rw [Response.redacted, Response.redacted, hresponse]
  obtain ⟨-, hlog, hpost⟩ := logs_of_redacted_eq hdiscreet rfl (Eq.refl w.logged) hx
  refine ⟨by decide, hlog, by decide +kernel, (hpost w w r r' rfl hr).2, ?_⟩
  rw [Exchange.snd_outgoing]
  decide +kernel

end Filter

end Gatehouse
