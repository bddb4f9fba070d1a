import Gatehouse.Assembly
import Gatehouse.Filter.Chain

/-!
# The gateway

`Gateway.handle` takes an exchange through the filters of its route and to the backend: the hooks
before the request, the sending within the scope of the exchange and under the breaker of the route,
and the hooks after the response. An error that ends it carries the id of the route.
-/

namespace Gatehouse

/-- How an exchange ends. -/
inductive Ending
  | answered
  | failed (e : Error)
  /-- A filter, the client or the breaker broke down, and the exchange with it. -/
  | panicked
  /-- The caller is gone. -/
  | dropped
  deriving DecidableEq, Repr

namespace Exchange

/-- An exchange that begins on a route. -/
def begin_ (route : Route) (request : Request) (w : World) : Exchange where
  routeId := route.id
  target := route.uri
  request := request
  logCap := route.logCap
  scope := { deadline := route.timeout.map (w.now + ·), cancelAt := w.abortAt }

/-- The error of a URL that makes no target. -/
def targetError (url : Bytes) : Error :=
  .http (if Http.Target.maxLength < url.length then "uri too long" else "invalid uri character")

/-- The request to the backend: to the place of the route, without the host and without the headers
that concern one connection only. The exchange hands its body on. -/
def outgoing (x : Exchange) : Except Error Outgoing × Exchange :=
  let url := (Route.destinationOf x.target x.request.url).render
  let headers := Http.stripHopByHop (x.request.headers.remove Http.host)
  let (body, rest) := x.request.body.forward
  let after := { x with request := { x.request with body := rest } }
  match Http.Target.parse? url with
  | some target => (.ok { method := x.request.method, target, headers, body }, after)
  | none => (.error (targetError url), after)

/-- The exchange with the response of the backend, without the headers of its connection. -/
def answeredBy (x : Exchange) (r : Response) : Exchange :=
  { x with response := some { r with headers := Http.stripHopByHop r.headers } }

end Exchange

namespace Gateway

/-- A failure of a backend as its route sees it. -/
def backendError : Error → Error
  | .deadlineExceeded => .deadlineExceeded
  | .canceled => .canceled
  | .circuitOpen b => .circuitOpen b
  | .halfOpenExhausted b => .halfOpenExhausted b
  | .backend reason => .backend reason
  | e => .backend e.message

/-- The failure that a status stands for. -/
def statusFailure (code : Nat) : Option Error :=
  if 500 ≤ code ∧ code < 600 then some (.backendStatus code) else none

/-- Hands a request to the client within the scope of the exchange. -/
def send (client : Receiver) (x : Exchange) (o : Outgoing) (w : World) :
    Waited (Except Error Reply) × World :=
  let w := if x.scope.isCancelled w.now then w else w.note .send
  let (ended, seen) := x.scope.run w.now w.gone none (client o w.now)
  (ended, { w with received := w.received ++ seen.toList })

/-- What becomes of a call to the backend. -/
def call (client : Receiver) (x : Exchange) (o : Outgoing) (w : World) :
    Breaker.CallFate Response × World :=
  match send client x o w with
  | (.givenUp, w) => (.dropped, w)
  | (.done now (.error e), w) => (.error e, w.moveTo now)
  | (.done now (.ok .panicked), w) => (.panicked, w.moveTo now)
  | (.done now (.ok (.response r)), w) => (.value r (statusFailure r.status), w.moveTo now)

/-- What becomes of a call to the backend under the breaker of the route, if there is one. -/
def guarded (client : Receiver) (route : Route) (x : Exchange) (o : Outgoing) (w : World) :
    Except Panic (Breaker.CallFate Response) × World :=
  match route.breaker with
  | none => (call client x o w).map .ok id
  | some b =>
    match Breaker.execute b.policy (w.breaker b.begun route.id) w.clock.now w fun w =>
      let (fate, w) := call client x o w
      (w.clock.now, fate, w) with
    | (.error panic, b, w) => (.error panic, w.keepBreaker route.id b)
    | (.ok (.error e), b, w) => (.ok (.error e), w.keepBreaker route.id b)
    | (.ok (.ok fate), b, w) => (.ok fate, w.keepBreaker route.id b)

/-- The end of a run of hooks, if it did not go through. -/
def endingOf (route : Route) : HookEnd → Option Ending
  | .passed => none
  | .failed e => some (.failed (.route route.id e))
  | .panicked => some .panicked
  | .givenUp => some .dropped

/-- Takes an exchange through the filters and to the backend. -/
def handle (client : Receiver) (globals : List Filter) (route : Route) (w : World) (x : Exchange) :
    Ending × World × Exchange :=
  let chain := globals ++ route.filters
  let (before, w, x) := Filter.preAll chain w x
  match endingOf route before with
  | some ending => (ending, w, x)
  | none =>
    match x.outgoing with
    | (.error e, x) => (.failed (.route route.id e), w, x)
    | (.ok o, x) =>
      match guarded client route x o w with
      | (.error _, w) => (.panicked, w, x)
      | (.ok (.error e), w) => (.failed (.route route.id (backendError e)), w, x)
      | (.ok .panicked, w) => (.panicked, w, x)
      | (.ok .dropped, w) => (.dropped, w, x)
      | (.ok (.value r _), w) =>
        let (after, w, x) := Filter.postAll chain w (x.answeredBy r)
        ((endingOf route after).getD .answered, w, x)

end Gateway

end Gatehouse
