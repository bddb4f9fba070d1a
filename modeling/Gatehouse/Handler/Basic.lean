import Gatehouse.Gateway
import Gatehouse.Handler.Mount
import Gatehouse.Handler.Refusal

/-!
# Handling requests

`Handler.handle` answers a request: by the handler that is mounted for it, or else through the first
route that accepts it. A failure becomes a response. Every response carries the id of its request.
-/

namespace Gatehouse

/-- What requests are answered by. -/
structure Handler where
  table : RoutingTable
  globals : List Filter := []
  mounts : Mounts := []
  /-- How long the body of a request may take. -/
  readTimeout : Option Duration := none

/-- What becomes of a request. -/
inductive Handled
  | answered (r : Response)
  | panicked
  /-- The caller is gone. -/
  | dropped

namespace Handler

/-- The handler of an application. -/
def ofApplication (app : Application) : Handler where
  table := app.assembly.table
  globals := app.assembly.globals
  readTimeout := Route.nonZero app.config.server.readTimeout

/-- Mounts a handler. -/
def mount (h : Handler) (point : MountPoint) (receiver : Receiver) : Handler :=
  { h with mounts := (point, receiver) :: h.mounts }

/-- The id that a request carries, if its text can be shown. -/
def requestId? (head : Http.RequestHead) : Option Bytes := head.headers.firstText? Http.requestId

/-- Answers with a failure, which is logged. -/
def refuse (w : World) (e : Error) : Handled × World := (.answered e.response, w.emit e.event)

/-- The event of an exchange that went through. -/
def completed (r : Response) : Event where
  level := .info
  message := "Request completed"
  fields := [("status", .number r.status)]

/-- The response of an exchange, which hands its body on. -/
def responseOf (x : Exchange) : Except Error Response :=
  match x.response with
  | some r => .ok { r with body := r.body.forward.1 }
  | none => .error (.internal "gateway finished without a response")

/-- Answers by a mounted handler. -/
def callMounted (receiver : Receiver) (o : Outgoing) (w : World) : Handled × World :=
  let (ended, seen) := receiver o w.now w.gone
  let w := { w with mounted := w.mounted ++ seen.toList }
  match ended with
  | .givenUp => (.dropped, w)
  | .done now (.error e) => refuse (w.moveTo now) e
  | .done now (.ok .panicked) => (.panicked, w.moveTo now)
  | .done now (.ok (.response r)) => (.answered r, w.moveTo now)

/-- Whether the end of a limit that begins now can be told; where it cannot, answering breaks down. -/
def limitFits (w : World) (limit : Option Duration) : Bool :=
  limit.all fun d => Instant.fits (w.now + d)

/-- Answers through a route. -/
def callRoute (h : Handler) (client : Receiver) (route : Route) (request : Request) (w : World) :
    Handled × World :=
  if !limitFits w route.timeout then (.panicked, w)
  else match Gateway.handle client h.globals route w (.begin_ route request w) with
  | (.dropped, w, _) => (.dropped, w)
  | (.panicked, w, _) => (.panicked, w)
  | (.failed e, w, _) => refuse w e
  | (.answered, w, x) =>
    match responseOf x with
    | .error e => refuse w e
    | .ok r => (.answered r, w.emit (completed r))

/-- Answers a request that carries an id. -/
def dispatch (h : Handler) (client : Receiver) (head : Http.RequestHead) (source : Source)
    (remote : Option Net.Endpoint) (w : World) : Handled × World :=
  let source := source.withReadLimit w.now h.readTimeout
  let point := MountPoint.ofHead head
  if !limitFits w h.readTimeout then (.panicked, w)
  else match h.mounts.lookup point with
  | some receiver =>
    callMounted receiver
      { method := head.method, target := head.target, headers := head.headers,
        body := .ofSource source none } w
  | none =>
    match h.table.find? w.clock head with
    | .error _ => (.panicked, w)
    | .ok none => refuse w (.routeNotFound point.text)
    | .ok (some route) =>
      match Request.ofHead head source remote with
      | .error e => refuse w e
      | .ok request => callRoute h client route request w

/-- The response with the id of the request, unless it has one of its own. -/
def stamp (id : Bytes) (r : Response) : Response :=
  if r.headers.contains Http.requestId then r
  else { r with headers := r.headers.append Http.requestId id }

/-- Answers a request; one without an id gets a new one. -/
def handle (h : Handler) (client : Receiver) (newId : Bytes) (head : Http.RequestHead)
    (source : Source) (remote : Option Net.Endpoint) (w : World) : Handled × World :=
  let (id, head) := match requestId? head with
    | some id => (id, head)
    | none => (newId, { head with headers := head.headers.set Http.requestId newId })
  match dispatch h client head source remote w with
  | (.answered r, w) => (.answered (stamp id r), w)
  | other => other

end Handler

end Gatehouse
