import Gatehouse.Proofs.Filter.Logging
import Gatehouse.Proofs.Handler.Answer

/-!
# Loggers only watch

Two chains that are the same without their loggers send the same request and come to the same response,
although a body that is logged is handed on from memory and later. What they send is compared in
`sends_agree`, and how they end in `handle_agree`, for exchanges that nothing disturbs. It would disturb
one if a rate limiter or the breaker were asked at another time, as behind a logger that waits.
-/

namespace Gatehouse

open Gateway
open Gatehouse.Filter (Ran Fault SameButLoggers LeftAlike)

/-- Whether an exchange met its deadline, was cancelled or given up, or could not read a body. -/
def Ending.IsDisturbed : Ending → Prop
  | .dropped => True
  | .failed e => e.root.IsDisturbance
  | .answered | .panicked => False

/-! ## Messages up to how their bodies come -/

/-- Two responses with the same status, headers and content. -/
structure Response.Alike (r r' : Response) : Prop where
  status : r.status = r'.status
  headers : r.headers = r'.headers
  content : r.body.content = r'.body.content

/-- Two requests with the same method, target, headers and content. -/
structure Outgoing.Alike (o o' : Outgoing) : Prop where
  method : o.method = o'.method
  target : o.target = o'.target
  headers : o.headers = o'.headers
  content : o.body.content = o'.body.content

/-- Two replies that are the same up to how the body of a response comes. -/
inductive RepliesAlike : Except Error Reply → Except Error Reply → Prop
  | error (e : Error) : RepliesAlike (.error e) (.error e)
  | panicked : RepliesAlike (.ok .panicked) (.ok .panicked)
  | response {r r' : Response} : r.Alike r' → RepliesAlike (.ok (.response r)) (.ok (.response r'))

theorem RepliesAlike.refl : ∀ result, RepliesAlike result result
  | .error e => .error e
  | .ok .panicked => .panicked
  | .ok (.response _) => .response ⟨rfl, rfl, rfl⟩

/-- Replies that are alike miss a response for the same reason. -/
theorem RepliesAlike.missing_eq {result result' : Except Error Reply} (h : RepliesAlike result result')
    (finish finish' : Instant) :
    missing (.done finish result) = missing (.done finish' result') := by
  cases h <;> rfl

/-- A receiver replies to what it reads: to two requests that are alike and whose bodies can be read, it
replies alike, if it comes to a reply, whenever it receives them and in whatever pieces their bodies
come. -/
def TreatsAlike (client : Receiver) : Prop :=
  ∀ o o' now now' limit limit' finish finish' result result',
    o.Alike o' → o.body.Readable now limit → o'.body.Readable now' limit' →
    (client o now limit).1 = .done finish result → (client o' now' limit').1 = .done finish' result' →
    RepliesAlike result result'

/-- The receiver that follows a script treats requests alike. -/
theorem Script.treatsAlike (s : Script) : TreatsAlike s.receiver := by
  -- to a request that can be read the reply is the one of the script
  have hreply {o : Outgoing} {now finish : Instant} {limit : Option Instant}
      {result : Except Error Reply} (hread : o.body.Readable now limit)
      (h : (s.receiver o now limit).1 = .done finish result) : result = s.reply := by
    have hanswer {now : Instant} (h : s.answer now limit = .done finish result) :
        result = s.reply := by
      rw [answer] at h
      split at h <;> cases h
      rfl
    rw [receiver] at h
    split at h
    · exact hanswer h
    · obtain ⟨finish', bytes, after, hread⟩ := hread
      simp only [hread] at h
      exact hanswer h
  intro o o' now now' limit limit' finish finish' result result' _ hread hread' h h'
  rw [hreply hread h, hreply hread' h']
  exact .refl _

namespace Gateway

variable {client : Receiver} {route : Route} {chain chain' globals globals' filters : List Filter}
  {w w₁ w₂ : World} {x x₁ x₂ y : Exchange} {b b₁ b₂ : Body} {o : Outgoing} {finish : Instant}
  {result : Except Error Reply} {e : Error}

/-! ## What is sent -/

/-- A request is handed to the client, which begins on it. -/
def Sends (route : Route) (chain : List Filter) (w : World) (x : Exchange) (o : Outgoing) : Prop :=
  ∃ w₁ x₂, Built chain w x o w₁ x₂ ∧ admission route w₁ = .ok (.ok ()) ∧
    x₂.scope.isCancelled w₁.now = false

/-- The request to the backend does not depend on the body but for the body itself. -/
theorem outgoing_withBody (h : (y.withBody b₁).outgoing = (.ok o, x₂)) (b : Body) :
    o.body = b₁.forward.1 ∧ x₂ = y.withBody b₁.forward.2 ∧
      (y.withBody b).outgoing = (.ok { o with body := b.forward.1 }, y.withBody b.forward.2) := by
  simp only [Exchange.outgoing, Exchange.withBody] at h ⊢
  split at h
  · cases h
    exact ⟨rfl, rfl, rfl⟩
  · cases h

theorem outgoing_error_withBody (h : (y.withBody b₁).outgoing = (.error e, x₂)) (b : Body) :
    ∃ x', (y.withBody b).outgoing = (.error e, x') := by
  simp only [Exchange.outgoing, Exchange.withBody] at h ⊢
  split at h
  · cases h
  · cases h
    exact ⟨_, rfl⟩

theorem admission_congr (h : w₁.Agrees w₂)
    (hclock : route.breaker.isSome = true → w₁.clock.now = w₂.clock.now) :
    admission route w₁ = admission route w₂ := by
  cases hb : route.breaker with
  | none => simp only [admission, hb]
  | some b =>
    rw [hb] at hclock
    simp only [admission, hb, World.breaker, h.breakers, hclock rfl]

/-- What comes back to an exchange that is not interrupted is what the client came to. -/
theorem client_of_send (h : (send client x o w).1 = .done finish result)
    (hresult : ∀ e, result = .error e → ¬ e.IsInterruption) :
    x.scope.isCancelled w.now = false ∧
      (client o w.now (x.scope.limit w.now w.gone)).1 = .done finish result := by
  simp only [send] at h
  have hworld : (if x.scope.isCancelled w.now = true then w else w.note .send).now = w.now ∧
      (if x.scope.isCancelled w.now = true then w else w.note .send).gone = w.gone := by
    split <;> exact ⟨rfl, rfl⟩
  rw [hworld.1, hworld.2] at h
  obtain ⟨hcancelled, hclient⟩ := Scope.operation_of_run (Prod.ext h rfl) hresult
  exact ⟨hcancelled, congrArg Prod.fst hclient⟩

/-- The replies to what two chains send are alike. -/
theorem replies_alike (hclient : TreatsAlike client) (hleft : LeftAlike w x w₁ b₁ w₂ b₂ y)
    {finish' : Instant} {result' : Except Error Reply}
    (h : (client { o with body := b₁.forward.1 } w₁.now (y.scope.limit w₁.now w₁.gone)).1 =
      .done finish result)
    (h' : (client { o with body := b₂.forward.1 } w₂.now (y.scope.limit w₂.now w₂.gone)).1 =
      .done finish' result') : RepliesAlike result result' := by
  have halike : Outgoing.Alike { o with body := b₁.forward.1 } { o with body := b₂.forward.1 } := by
    refine ⟨rfl, rfl, rfl, ?_⟩
    rw [Body.content_forward, Body.content_forward, hleft.left.content_eq, hleft.right.content_eq]
  have hgone : w₂.gone = w.gone := hleft.agrees.gone.symm.trans hleft.gone
  have hkept {b : Body} {now : Instant} {limit : Option Instant}
      (hcaptured : b.captured = some x.request.body.content) : b.forward.1.Readable now limit := by
    simp only [Body.forward, hcaptured]
    exact Body.readable_ofBytes _ _ _
  rw [hleft.scope, hleft.gone] at h
  rw [hleft.scope, hgone] at h'
  have hl := hleft.left
  have hr := hleft.right
  generalize w₁.now = now₁ at h hl
  generalize w₂.now = now₂ at h' hr
  -- bodies that no logger has captured are sent at once, and those that one has can be read
  cases hl with
  | untouched =>
    cases hr with
    | untouched =>
      cases h.symm.trans h'
      exact .refl _
    | kept hcaptured hreadable =>
      exact hclient _ _ _ _ _ _ _ _ _ _ halike hreadable.forward (hkept hcaptured) h h'
  | kept hcaptured hreadable =>
    cases hr with
    | untouched => exact hclient _ _ _ _ _ _ _ _ _ _ halike (hkept hcaptured) hreadable.forward h h'
    | kept hcaptured' _ =>
      exact hclient _ _ _ _ _ _ _ _ _ _ halike (hkept hcaptured) (hkept hcaptured') h h'

/-! ## Reports -/

/-- While the clock stands still, a call takes no time by it. -/
theorem clock_call (client : Receiver) (x : Exchange) (o : Outgoing) (hstill : w.clockRuns = false) :
    (call client x o w).2.clock = w.clock := by
  have hsend : (send client x o w).2.clock = w.clock ∧ (send client x o w).2.clockRuns = false := by
    simp only [send]
    split <;> exact ⟨rfl, hstill⟩
  rw [call]
  split <;> simp_all [World.moveTo]

/-- What replies that are alike mean for a breaker is the same. -/
theorem succeeds_call {o₁ o₂ : Outgoing} {finish₁ finish₂ : Instant}
    {result₁ result₂ : Except Error Reply} (p : BreakerPolicy)
    (h₁ : (send client x₁ o₁ w₁).1 = .done finish₁ result₁)
    (h₂ : (send client x₂ o₂ w₂).1 = .done finish₂ result₂) (halike : RepliesAlike result₁ result₂) :
    (call client x₁ o₁ w₁).1.succeeds p = (call client x₂ o₂ w₂).1.succeeds p := by
  rw [fate_call, fate_call, h₁, h₂]
  cases halike with
  | error | panicked => rfl
  | response halike =>
    dsimp only
    rw [halike.status]
    cases statusFailure _ <;> rfl

/-- Reports of replies that are alike come to the same, if the clock stands still. -/
theorem settlement_congr {o₁ o₂ : Outgoing} {finish₁ finish₂ : Instant}
    {result₁ result₂ : Except Error Reply} (h : w₁.Agrees w₂)
    (hclock : route.breaker.isSome = true → w₁.clock.now = w₂.clock.now)
    (hstill : w₁.clockRuns = false) (h₁ : (send client x₁ o₁ w₁).1 = .done finish₁ result₁)
    (h₂ : (send client x₂ o₂ w₂).1 = .done finish₂ result₂) (halike : RepliesAlike result₁ result₂) :
    settlement client route x₁ o₁ w₁ = settlement client route x₂ o₂ w₂ := by
  cases hb : route.breaker with
  | none => simp only [settlement, hb]
  | some b =>
    rw [hb] at hclock
    have hstill' : w₂.clockRuns = false := h.clockRuns.symm.trans hstill
    simp only [settlement, hb, World.breaker, h.breakers, hclock rfl, clock_call client _ _ hstill,
      clock_call client _ _ hstill', succeeds_call b.policy h₁ h₂ halike]

/-! ## Exchanges that nothing disturbs -/

/-- The client came to a reply, without an interruption. -/
def Replies (client : Receiver) (x : Exchange) (o : Outgoing) (w : World) : Prop :=
  ∃ finish result, (send client x o w).1 = .done finish result ∧
    ∀ e, result = .error e → ¬ e.IsInterruption

/-- An exchange that nothing disturbs. -/
structure Undisturbed (client : Receiver) (globals : List Filter) (route : Route) (w : World)
    (x : Exchange) : Prop where
  /-- It is not given up, meets no deadline and no cancellation, and can read what it captures. -/
  ending : ¬ (handle client globals route w x).1.IsDisturbed
  /-- Nor does its client meet any of these. -/
  replies : ∀ {o w₁ x₂}, Built (globals ++ route.filters) w x o w₁ x₂ →
    admission route w₁ = .ok (.ok ()) → Replies client x₂ o w₁
  /-- Its rate limiters read the clock as it was at the beginning. -/
  limiters : Filter.LimitsAt w.clock.now (globals ++ route.filters) w x
  /-- So does the breaker, when it is asked. -/
  breaker : ∀ {w₁ x₁}, Ran Filter.pre .pre (globals ++ route.filters) w x
    (globals ++ route.filters) none w₁ x₁ → route.breaker.isSome = true →
    w₁.clock.now = w.clock.now
  /-- Where the clock runs, no generation begins whose end cannot be told. -/
  reports : w.clockRuns = true → ∀ t w' x',
    ¬ Course client route (globals ++ route.filters) w x t (some .overflowed) w' x'

/-- A report that no generation comes of whose end cannot be told is made. -/
theorem settlement_of_reports
    (hreports : ∀ t w' x', ¬ Course client route chain w x t (some .overflowed) w' x')
    (hbuilt : Built chain w x o w₁ x₂) (hadmitted : admission route w₁ = .ok (.ok ()))
    (hsend : (send client x₂ o w₁).1 = .done finish result) :
    settlement client route x₂ o w₁ = .ok () := by
  match hsettled : settlement client route x₂ o w₁ with
  | .ok () => rfl
  | .error panic =>
    have hmissing : missing (send client x₂ o w₁).1 ≠ some .gone := by
      rw [hsend]
      rcases result with e | r | _ <;> nofun
    exact absurd (.unreported hbuilt hadmitted hmissing hsettled) (hreports _ _ _)

/-- The client of an exchange without a breaker comes to a reply, if the ending is not disturbed. -/
theorem replies_of_unguarded (hunguarded : route.breaker = none)
    (hquiet : ¬ (handle client globals route w x).1.IsDisturbed)
    (hbuilt : Built (globals ++ route.filters) w x o w₁ x₂) : Replies client x₂ o w₁ := by
  have hadmitted : admission route w₁ = .ok (.ok ()) := by simp only [admission, hunguarded]
  have hsettled : settlement client route x₂ o w₁ = .ok () := by simp only [settlement, hunguarded]
  rcases hsend : (send client x₂ o w₁).1 with ⟨finish, e | reply⟩ | _
  case givenUp =>
    have hmissing : missing (send client x₂ o w₁).1 = some .gone := by rw [hsend]; rfl
    rw [(Course.unanswered hbuilt hadmitted hmissing (.inl rfl)).handle_eq] at hquiet
    exact absurd trivial hquiet
  case done.ok =>
    refine ⟨finish, _, hsend, ?_⟩
    rintro _ ⟨⟩
  case done.error =>
    refine ⟨finish, _, hsend, ?_⟩
    rintro e' he' hinterruption
    cases he'
    have hmissing : missing (send client x₂ o w₁).1 = some (.backend e) := by rw [hsend]; rfl
    rw [(Course.unanswered hbuilt hadmitted hmissing (.inr hsettled)).handle_eq] at hquiet
    cases e with
    | deadlineExceeded => exact hquiet trivial
    | canceled => exact hquiet trivial
    | _ => exact hinterruption

/-- Where there are no rate limiters and no breaker, the ending shows what disturbs an exchange. -/
theorem undisturbed_of_unguarded (hunguarded : route.breaker = none)
    (hunlimited : ∀ f ∈ globals ++ route.filters, f.isLimiter = false)
    (hquiet : ¬ (handle client globals route w x).1.IsDisturbed) :
    Undisturbed client globals route w x where
  ending := hquiet
  replies hbuilt _ := replies_of_unguarded hunguarded hquiet hbuilt
  limiters := Filter.limitsAt_of_unlimited hunlimited _ w x
  breaker _ hguarded := by
    rw [hunguarded] at hguarded
    cases hguarded
  reports _ t w' x' hcourse := by
    obtain ⟨b, hb, -⟩ := hcourse.of_overflowed
    cases hunguarded.symm.trans hb

section Quiet

variable {ran : List Filter} {stop : Option (Filter × Fault)}
  (hquiet : Undisturbed client globals route w x)
  (hbuiltIn : ∀ f ∈ globals ++ route.filters, f.IsBuiltIn)

include hquiet hbuiltIn

/-- No logger stops an exchange that is not disturbed. -/
theorem isLogger_of_quiet
    (h : Ran Filter.pre .pre (globals ++ route.filters) w x ran stop w₁ x₁) :
    ∀ f fault, stop = some (f, fault) → f.isLogger = false := by
  rintro f fault rfl
  have hending := hquiet.ending
  rw [(Course.stoppedBefore h).handle_eq] at hending
  cases fault with
  | givenUp => exact absurd trivial hending
  | panicked =>
    exact absurd rfl (h.fault_ne_panicked_of_pre fun g hg => (hbuiltIn g hg).steady)
  | error e =>
    rw [Bool.eq_false_iff]
    intro hlogger
    have he := h.isDisturbance_of_isLogger hlogger
    exact hending he.root

/-- The hooks after the response of an exchange that is not disturbed all succeed. -/
theorem through_of_quiet {r : Response} (hbuilt : Built (globals ++ route.filters) w x o w₁ x₂)
    (hadmitted : admission route w₁ = .ok (.ok ()))
    (hsend : (send client x₂ o w₁).1 = .done finish (.ok (.response r)))
    (hsettled : settlement client route x₂ o w₁ = .ok ())
    (hran : Ran Filter.post .post (globals ++ route.filters).reverse (guarded client route x₂ o w₁).2
      (x₂.answeredBy r) ran stop w₂ x₁) : stop = none := by
  have hreversed : ∀ g ∈ (globals ++ route.filters).reverse, g.IsBuiltIn :=
    fun g hg => hbuiltIn g (List.mem_reverse.mp hg)
  have hending := hquiet.ending
  rw [(Course.answered hbuilt hadmitted hsend hsettled hran).handle_eq] at hending
  match stop with
  | none => rfl
  | some (f, .givenUp) => exact absurd trivial hending
  | some (f, .panicked) =>
    exact absurd rfl (hran.fault_ne_panicked_of_post fun g hg => (hreversed g hg).steady)
  | some (f, .error e) => exact absurd (hran.isDisturbance_of_post hreversed).root hending

end Quiet

/-! ## Two chains that are the same without their loggers -/

/-- What both make of responses that are alike is alike. -/
theorem responses_alike (hsame : SameButLoggers (globals ++ route.filters) (globals' ++ filters))
    {r r' : Response} {ran ran' : List Filter} (halike : r.Alike r')
    (h : Ran Filter.post .post (globals ++ route.filters).reverse w₁ (x₁.answeredBy r) ran none w₂ x₂)
    {v₁ v₂ : World} {y₁ y₂ : Exchange}
    (h' : Ran Filter.post .post (globals' ++ filters).reverse v₁ (y₁.answeredBy r') ran' none v₂ y₂) :
    ∃ s s', x₂.response = some s ∧ y₂.response = some s' ∧ s.Alike s' := by
  obtain ⟨s, hs, hprocessed⟩ :=
    h.processedBy (fun f hf => hsame.left f (List.mem_reverse.mp hf)) rfl
  obtain ⟨s', hs', hprocessed'⟩ :=
    h'.processedBy (fun f hf => hsame.right f (List.mem_reverse.mp hf)) rfl
  have hchain : Filter.unlogged (globals ++ route.filters).reverse =
      Filter.unlogged (globals' ++ filters).reverse := by
    rw [Filter.unlogged, Filter.unlogged, List.filter_reverse, List.filter_reverse]
    exact congrArg List.reverse hsame.unlogged
  refine ⟨s, s', hs, hs', ?_, ?_, ?_⟩
  · rw [hprocessed.status, hprocessed'.status]
    exact halike.status
  · rw [hprocessed.headers, hprocessed'.headers, ← Filter.foldl_unlogged, hchain,
      Filter.foldl_unlogged]
    simp only [halike.headers]
  · rw [hprocessed.content, hprocessed'.content]
    exact halike.content

/-- Exchanges that stop in the same way end in the same way, and not with a response. -/
theorem ending_of_stopped {s : Stop} {t t' : Trace} {w₁ w₂ : World} {x₁ x₂ : Exchange}
    (h : Course client route (globals ++ route.filters) w x t (some s) w₁ x₁)
    (h' : Course client { route with filters } (globals' ++ filters) w x t' (some s) w₂ x₂) :
    (handle client globals' { route with filters } w x).1 = (handle client globals route w x).1 ∧
      ¬ (handle client globals route w x).1 = .answered := by
  rw [h.handle_eq, Course.handle_eq h']
  exact ⟨rfl, fun hanswered => nomatch endingOn_eq_answered_iff.mp hanswered⟩

section Pair

variable (hsame : SameButLoggers (globals ++ route.filters) (globals' ++ filters))
  (hquiet : Undisturbed client globals route w x)
  (hquiet' : Undisturbed client globals' { route with filters } w x)

include hsame hquiet hquiet'

/-- The hooks before the request stop at the same filter or leave the same exchange but for its body. -/
theorem leftAlike_of_quiet {ran ran' : List Filter} {stop stop' : Option (Filter × Fault)}
    (h : Ran Filter.pre .pre (globals ++ route.filters) w x ran stop w₁ x₁)
    (h' : Ran Filter.pre .pre (globals' ++ filters) w x ran' stop' w₂ x₂) :
    stop' = stop ∧ ∃ y b₁ b₂, x₁ = Exchange.withBody y b₁ ∧ x₂ = Exchange.withBody y b₂ ∧
      LeftAlike w x w₁ b₁ w₂ b₂ y :=
  hsame.leftAlike h h' (isLogger_of_quiet hquiet hsame.left h)
    (isLogger_of_quiet hquiet' hsame.right h') hquiet.limiters hquiet'.limiters

/-- A request that one of them has to send the other has too, and the breaker is asked at one time. -/
theorem built_of_quiet (h : Built (globals ++ route.filters) w x o w₁ x₁) :
    ∃ (y : Exchange) (b₁ b₂ : Body) (o₀ : Outgoing) (w₂ : World),
      o = { o₀ with body := b₁.forward.1 } ∧ x₁ = y.withBody b₁.forward.2 ∧
      Built (globals' ++ filters) w x { o₀ with body := b₂.forward.1 } w₂ (y.withBody b₂.forward.2) ∧
      LeftAlike w x w₁ b₁ w₂ b₂ y ∧
      (route.breaker.isSome = true → w₁.clock.now = w₂.clock.now) := by
  obtain ⟨x₁', hran, hout⟩ := h
  obtain ⟨ran', stop', w₂, x₂, hran'⟩ := Filter.exists_ran Filter.pre .pre (globals' ++ filters) w x
  obtain ⟨rfl, y, b₁, b₂, rfl, rfl, hleft⟩ := leftAlike_of_quiet hsame hquiet hquiet' hran hran'
  rw [hran'.eq_of_through] at hran'
  obtain ⟨hbody, rfl, hout'⟩ := outgoing_withBody hout b₂
  exact ⟨y, b₁, b₂, o, w₂, by rw [← hbody], rfl, ⟨_, hran', hout'⟩, hleft, fun hguarded =>
    (hquiet.breaker hran hguarded).trans (hquiet'.breaker hran' hguarded).symm⟩

/-- A request that one of them sends the other sends too. -/
theorem sends_agree (h : Sends route (globals ++ route.filters) w x o) :
    ∃ o', Sends { route with filters } (globals' ++ filters) w x o' ∧ o.Alike o' := by
  obtain ⟨w₁, x₁, hbuilt, hadmitted, -⟩ := h
  obtain ⟨y, b₁, b₂, o₀, w₂, rfl, rfl, hbuilt', hleft, hclock⟩ :=
    built_of_quiet hsame hquiet hquiet' hbuilt
  have hadmitted' : admission { route with filters } w₂ = .ok (.ok ()) :=
    (admission_congr hleft.agrees hclock).symm.trans hadmitted
  obtain ⟨finish, result, hsend, hresult⟩ := hquiet'.replies hbuilt' hadmitted'
  obtain ⟨hcancelled, -⟩ := client_of_send hsend hresult
  refine ⟨_, ⟨w₂, _, hbuilt', hadmitted', hcancelled⟩, rfl, rfl, rfl, ?_⟩
  rw [Body.content_forward, Body.content_forward, hleft.left.content_eq, hleft.right.content_eq]

/-- The replies that both get are alike, and so is what their reports come to. -/
theorem exists_replies (hclient : TreatsAlike client)
    (hbuilt : Built (globals ++ route.filters) w x o w₁ x₁)
    (hadmitted : admission route w₁ = .ok (.ok ())) :
    ∃ o' w₂ x₂ finish finish' result result', Built (globals' ++ filters) w x o' w₂ x₂ ∧
      admission { route with filters } w₂ = .ok (.ok ()) ∧
      (send client x₁ o w₁).1 = .done finish result ∧
      (send client x₂ o' w₂).1 = .done finish' result' ∧ RepliesAlike result result' ∧
      settlement client route x₁ o w₁ = settlement client { route with filters } x₂ o' w₂ := by
  obtain ⟨y, b₁, b₂, o₀, w₂, rfl, rfl, hbuilt', hleft, hclock⟩ :=
    built_of_quiet hsame hquiet hquiet' hbuilt
  have hadmitted' : admission { route with filters } w₂ = .ok (.ok ()) :=
    (admission_congr hleft.agrees hclock).symm.trans hadmitted
  obtain ⟨finish, result, hsend, hresult⟩ := hquiet.replies hbuilt hadmitted
  obtain ⟨finish', result', hsend', hresult'⟩ := hquiet'.replies hbuilt' hadmitted'
  obtain ⟨-, hreply⟩ := client_of_send hsend hresult
  obtain ⟨-, hreply'⟩ := client_of_send hsend' hresult'
  have halike := replies_alike hclient hleft hreply hreply'
  refine ⟨_, w₂, _, finish, finish', result, result', hbuilt', hadmitted', hsend, hsend', halike, ?_⟩
  cases hruns : w.clockRuns with
  | false =>
    have hstill : w₁.clockRuns = false := hleft.clockRuns.trans hruns
    exact settlement_congr hleft.agrees hclock hstill hsend hsend' halike
  | true =>
    rw [settlement_of_reports (hquiet.reports hruns) hbuilt hadmitted hsend,
      settlement_of_reports (hquiet'.reports hruns) hbuilt' hadmitted' hsend']

/-- Both end alike: in the same way, and behind responses that are alike with such responses. -/
theorem handle_agree (hclient : TreatsAlike client) :
    (handle client globals' { route with filters } w x).1 = (handle client globals route w x).1 ∧
    ((handle client globals route w x).1 = .answered →
      ∃ r r', (handle client globals route w x).2.2.response = some r ∧
        (handle client globals' { route with filters } w x).2.2.response = some r' ∧ r.Alike r') := by
  obtain ⟨t, stop, w', x', hcourse⟩ :=
    exists_course client route (globals ++ route.filters) w x
  cases hcourse with
  | stoppedBefore hran =>
    obtain ⟨ran', stop', w₂, x₂, hran'⟩ :=
      Filter.exists_ran Filter.pre .pre (globals' ++ filters) w x
    obtain ⟨rfl, -⟩ := leftAlike_of_quiet hsame hquiet hquiet' hran hran'
    exact (ending_of_stopped (.stoppedBefore hran) (.stoppedBefore hran')).imp_right Not.elim
  | unbuilt hran hout =>
    obtain ⟨ran', stop', w₂, x₂, hran'⟩ :=
      Filter.exists_ran Filter.pre .pre (globals' ++ filters) w x
    obtain ⟨rfl, y, b₁, b₂, rfl, rfl, -⟩ := leftAlike_of_quiet hsame hquiet hquiet' hran hran'
    rw [hran'.eq_of_through] at hran'
    obtain ⟨x₂, hout'⟩ := outgoing_error_withBody hout b₂
    exact (ending_of_stopped (.unbuilt hran hout) (.unbuilt hran' hout')).imp_right Not.elim
  | unasked hbuilt hpanic =>
    obtain ⟨y, b₁, b₂, o₀, w₂, rfl, rfl, hbuilt', hleft, hclock⟩ :=
      built_of_quiet hsame hquiet hquiet' hbuilt
    have hpanic' := (admission_congr hleft.agrees hclock).symm.trans hpanic
    exact (ending_of_stopped (.unasked hbuilt hpanic) (.unasked hbuilt' hpanic')).imp_right Not.elim
  | refused hbuilt hrefused =>
    obtain ⟨y, b₁, b₂, o₀, w₂, rfl, rfl, hbuilt', hleft, hclock⟩ :=
      built_of_quiet hsame hquiet hquiet' hbuilt
    have hrefused' := (admission_congr hleft.agrees hclock).symm.trans hrefused
    exact (ending_of_stopped (.refused hbuilt hrefused) (.refused hbuilt' hrefused')).imp_right Not.elim
  | unanswered hbuilt hadmitted hmissing hreported =>
    obtain ⟨o', w₂, x₂, finish, finish', result, result', hbuilt', hadmitted', hsend, hsend', halike,
      hsettlement⟩ := exists_replies hsame hquiet hquiet' hclient hbuilt hadmitted
    have hmissing' := hmissing
    rw [hsend, halike.missing_eq finish finish', ← hsend'] at hmissing'
    rw [hsettlement] at hreported
    exact (ending_of_stopped (.unanswered hbuilt hadmitted hmissing (hsettlement ▸ hreported))
      (.unanswered hbuilt' hadmitted' hmissing' hreported)).imp_right Not.elim
  | unreported hbuilt hadmitted hmissing hpanic =>
    obtain ⟨o', w₂, x₂, finish, finish', result, result', hbuilt', hadmitted', hsend, hsend', halike,
      hsettlement⟩ := exists_replies hsame hquiet hquiet' hclient hbuilt hadmitted
    have hmissing' := hmissing
    rw [hsend, halike.missing_eq finish finish', ← hsend'] at hmissing'
    exact (ending_of_stopped (.unreported hbuilt hadmitted hmissing hpanic)
      (.unreported hbuilt' hadmitted' hmissing' (hsettlement.symm.trans hpanic))).imp_right Not.elim
  | answered hbuilt hadmitted hsend hsettled hran =>
    obtain ⟨o', w₂, x₂, finish, finish', result, result', hbuilt', hadmitted', hsend₁, hsend', halike,
      hsettlement⟩ := exists_replies hsame hquiet hquiet' hclient hbuilt hadmitted
    cases hsend.symm.trans hsend₁
    have hsettled' := hsettlement.symm.trans hsettled
    cases halike with
    | @response r r' halike =>
      obtain ⟨ran', stop', v₂, y₂, hran'⟩ := Filter.exists_ran Filter.post .post
        (globals' ++ filters).reverse (guarded client { route with filters } x₂ o' w₂).2
        (x₂.answeredBy r')
      obtain rfl := through_of_quiet hquiet hsame.left hbuilt hadmitted hsend hsettled hran
      obtain rfl := through_of_quiet hquiet' hsame.right hbuilt' hadmitted' hsend' hsettled' hran'
      have hcourse : Course client route (globals ++ route.filters) w x _ _ _ _ :=
        .answered hbuilt hadmitted hsend hsettled hran
      have hcourse' : Course client { route with filters } (globals' ++ filters) w x _ _ _ _ :=
        .answered hbuilt' hadmitted' hsend' hsettled' hran'
      rw [hcourse.handle_eq, Course.handle_eq hcourse']
      exact ⟨rfl, fun _ => responses_alike hsame halike hran hran'⟩

end Pair

end Gateway

/-- Whether two requests come to the same end, behind responses that are alike. -/
def Handled.Alike : Handled → Handled → Prop
  | .answered r, .answered r' => r.Alike r'
  | .panicked, .panicked => True
  | .dropped, .dropped => True
  | _, _ => False

namespace Handler

/-- Exchanges that end in the same way, behind responses that are alike, are answered alike. -/
theorem handledOn_alike {ending : Ending} {x x' : Exchange}
    (h : ending = .answered → ∃ r r', x.response = some r ∧ x'.response = some r' ∧ r.Alike r') :
    (handledOn ending x).Alike (handledOn ending x') := by
  cases ending with
  | dropped => trivial
  | panicked => trivial
  | failed e => exact ⟨rfl, rfl, rfl⟩
  | answered =>
    obtain ⟨r, r', hr, hr', halike⟩ := h rfl
    simp only [handledOn, responseOf, hr, hr', responseTo, Handled.Alike]
    refine ⟨halike.status, halike.headers, ?_⟩
    rw [Body.content_forward, Body.content_forward]
    exact halike.content

/-- An exchange begins in the same way whatever the filters. -/
theorem begin_withFilters (route : Route) (filters : List Filter) (request : Request) (w : World) :
    Exchange.begin_ { route with filters } request w = .begin_ route request w := rfl

/-- **Loggers only watch.** Take two chains of filters of the gateway that are the same without their
loggers, which may be of any levels and limits and at any places, and an exchange that neither chain
has disturbed: it was not given up, met no deadline and no cancellation, could read the bodies that it
captured, and had its rate limiters and its breaker asked while the clock read as at the beginning.
Then a client that replies to what it reads is handed the same request with both, with the
same method, target, headers and content, and the request is answered with the same status, headers and
content. The content of a body is what its reader has got at its end (`Body.eq_content_of_readAll`). -/
theorem loggers_only_watch {h h' : Handler} {client : Receiver} {route : Route} {filters : List Filter}
    {request : Request} {w : World} (hclient : TreatsAlike client)
    (hsame : SameButLoggers (h.globals ++ route.filters) (h'.globals ++ filters))
    (hquiet : Undisturbed client h.globals route w (.begin_ route request w))
    (hquiet' : Undisturbed client h'.globals { route with filters } w (.begin_ route request w)) :
    let x := Exchange.begin_ route request w
    (∀ o, Sends route (h.globals ++ route.filters) w x o →
      ∃ o', Sends { route with filters } (h'.globals ++ filters) w x o' ∧ o.Alike o') ∧
    (∀ o', Sends { route with filters } (h'.globals ++ filters) w x o' →
      ∃ o, Sends route (h.globals ++ route.filters) w x o ∧ o'.Alike o) ∧
    (h.callRoute client route request w).1.Alike
      (h'.callRoute client { route with filters } request w).1 := by
  intro x
  let route' : Route := { route with filters }
  have hback : ∀ o', Sends route' (h'.globals ++ route'.filters) w x o' →
      ∃ o, Sends { route' with filters := route.filters } (h.globals ++ route.filters) w x o ∧
        o'.Alike o := by
    have hsame' : SameButLoggers (h'.globals ++ route'.filters) (h.globals ++ route.filters) :=
      hsame.symm
    have hquiet'' : Undisturbed client h.globals { route' with filters := route.filters } w x := hquiet
    exact fun o' hsends => sends_agree hsame' hquiet' hquiet'' hsends
  refine ⟨fun o hsends => sends_agree hsame hquiet hquiet' hsends, hback, ?_⟩
  obtain ⟨hending, hresponse⟩ := handle_agree hsame hquiet hquiet' hclient
  cases hlimit : limitFits w route.timeout with
  | false =>
    simp only [callRoute, hlimit]
    trivial
  | true =>
    have hlimit' : limitFits w ({ route with filters } : Route).timeout = true := hlimit
    rw [callRoute_eq client request hlimit, callRoute_eq client request hlimit']
    rw [begin_withFilters route filters, hending]
    exact handledOn_alike hresponse

/-! ## A request with three bytes -/

/-- A handler without routes of its own, with some filters for all routes. -/
def withGlobals (globals : List Filter) : Handler := { table := {}, globals }

/-- A request with a body from a stream. -/
def requestOf (source : Source) : Request :=
  { url := failingRoute.uri, body := .ofSource source none }

theorem limitFits_routeWith (filters : List Filter) (w : World) :
    limitFits w (routeWith filters).timeout = true := rfl

/-- Two loggers around a filter that edits a header of the request do not matter. -/
theorem loggers_only_watch_threeBytes :
    let logged := withGlobals [.logger .info 1]
    let route := routeWith [setUser, .logger .debug 0]
    let request := requestOf Body.threeBytes
    ∃ r r', (logged.callRoute (Script.receiver {}) route request default).1 = .answered r ∧
      ((withGlobals []).callRoute (Script.receiver {}) { route with filters := [setUser] } request
        default).1 = .answered r' ∧ r.Alike r' := by
  intro logged route request
  have hsame : SameButLoggers (logged.globals ++ route.filters)
      ((withGlobals []).globals ++ [setUser]) := by
    refine ⟨?_, ?_, rfl⟩
    · simp [logged, route, withGlobals, routeWith, setUser, Filter.IsBuiltIn]
    · simp [withGlobals, setUser, Filter.IsBuiltIn]
  have hending : (Gateway.handle (Script.receiver {}) logged.globals route default
      (.begin_ route request default)).1 = .answered := by decide +kernel
  have hending' : (Gateway.handle (Script.receiver {}) (withGlobals []).globals
      { route with filters := [setUser] } default (.begin_ route request default)).1 = .answered := by
    decide +kernel
  have hunlimited : ∀ f ∈ logged.globals ++ route.filters, f.isLimiter = false := by
    simp [logged, route, withGlobals, routeWith, setUser, Filter.isLimiter]
  have hunlimited' : ∀ f ∈ (withGlobals []).globals ++ [setUser], f.isLimiter = false := by
    simp [withGlobals, setUser, Filter.isLimiter]
  obtain ⟨-, -, halike⟩ := loggers_only_watch (Script.treatsAlike {}) hsame
    (undisturbed_of_unguarded rfl hunlimited (by rw [hending]; exact id))
    (undisturbed_of_unguarded rfl hunlimited' (by rw [hending']; exact id))
  have hleft : ∃ r, (logged.callRoute (Script.receiver {}) route request default).1 = .answered r := by
    rw [callRoute_eq _ request (limitFits_routeWith _ default), hending]
    exact ⟨_, rfl⟩
  have hlimit : limitFits default ({ route with filters := [setUser] } : Route).timeout = true := rfl
  have hright : ∃ r, ((withGlobals []).callRoute (Script.receiver {}) { route with filters := [setUser] }
      request default).1 = .answered r := by
    rw [callRoute_eq _ request hlimit, begin_withFilters route [setUser], hending']
    exact ⟨_, rfl⟩
  obtain ⟨r, hr⟩ := hleft
  obtain ⟨r', hr'⟩ := hright
  rw [hr, hr'] at halike
  exact ⟨r, r', hr, hr', halike⟩

/-- A world whose clock runs, with a breaker that opened a while ago and stays open for 3 s more. -/
def recovering : World where
  clock := { start := default }
  clockRuns := true
  breakers := [("order", { state := .opened, generation := 1, expiry := some (.ofSeconds 3) })]

/-- The route of that breaker, with some filters. -/
def recoveringRoute (filters : List Filter) : Route :=
  let policy : BreakerPolicy := { name := "order", timeout := .ofSeconds 10 }
  { routeWith filters with breaker := some ⟨policy, Breaker.start policy 0⟩ }

/-- The status of a response, if there is one. -/
def statusOf? : Handled → Option Nat
  | .answered r => some r.status
  | .panicked | .dropped => none

/-- Behind a logger a body without an end is never sent, which would be sent without the logger. And
where the clock runs, the breaker lets the request through that the logger has kept waiting for the end
of its body, but not the one that comes at once. -/
theorem loggers_interfere :
    let chain := [Filter.logger .info 0]
    let endless : Source := { chunks := [.frame (.data [0x61]), .stall] }
    let slow : Source := { chunks := [.delay (.ofSeconds 5), .frame (.data [0x61])] }
    let client := Script.receiver { ignoresBody := true }
    let x := Exchange.begin_ (routeWith chain) (requestOf endless) default
    (∀ c ∈ endless.chunks ++ slow.chunks, ∀ reason, c ≠ .frame (.failure reason)) ∧
    x.scope.deadline = none ∧ x.scope.cancelAt = none ∧
    (∃ r, ((withGlobals []).callRoute client (routeWith []) (requestOf endless) default).1 =
      .answered r) ∧
    (∃ o, Sends (routeWith []) [] default x o) ∧
    (∀ r, ((withGlobals []).callRoute client (routeWith chain) (requestOf endless) default).1 ≠
      .answered r) ∧
    (∀ o, ¬ Sends (routeWith chain) chain default x o) ∧
    statusOf? ((withGlobals []).callRoute client (recoveringRoute chain) (requestOf slow)
      recovering).1 = some 200 ∧
    statusOf? ((withGlobals []).callRoute client (recoveringRoute []) (requestOf slow)
      recovering).1 = some 503 := by
  intro chain endless slow client x
  have hanswered : (Gateway.handle client (withGlobals []).globals (routeWith []) default
      (.begin_ (routeWith []) (requestOf endless) default)).1 = .answered := by decide +kernel
  have hdropped : (Gateway.handle client (withGlobals []).globals (routeWith chain) default
      (.begin_ (routeWith chain) (requestOf endless) default)).1 = .dropped := by decide +kernel
  have hgivenUp : (Filter.preAll chain default x).1 = .givenUp := by decide +kernel
  refine ⟨?_, rfl, rfl, ?_, ?_, ?_, ?_, by decide +kernel, by decide +kernel⟩
  · intro c hc reason hfailure
    rw [hfailure] at hc
    simp [endless, slow] at hc
  · rw [callRoute_eq client (requestOf endless) (limitFits_routeWith [] default), hanswered]
    exact ⟨_, rfl⟩
  · obtain ⟨o, x', hout⟩ := @Exchange.exists_outgoing x (by decide +kernel)
    have hbody : (x.withBody x.request.body).outgoing = (.ok o, x') := hout
    obtain ⟨-, rfl, -⟩ := outgoing_withBody hbody .empty
    exact ⟨o, default, _, ⟨x, .through _ _, hout⟩, rfl, rfl⟩
  · intro r
    rw [callRoute_eq client (requestOf endless) (limitFits_routeWith chain default), hdropped]
    exact nofun
  · rintro o ⟨w₁, x₂, ⟨x₁, hran, -⟩, -⟩
    have hpassed : Filter.preAll chain default x = (.passed, w₁, x₁) := hran.runHooks_eq .preFilter
    rw [hpassed] at hgivenUp
    cases hgivenUp

end Handler

end Gatehouse
