import Gatehouse.Breaker.Basic
import Gatehouse.Filter.Chain
import Gatehouse.Predicate.Basic

/-!
# Routes

A route says where requests that pass its predicates are sent, and through which filters. Of a
routing table the first route whose predicates all pass is used.
-/

namespace Gatehouse

/-- The breaker of a route: its policy, and the breaker as it has begun. -/
structure RouteBreaker where
  policy : BreakerPolicy
  begun : Breaker

/-- A route. -/
structure Route where
  id : String
  uri : Url
  predicates : List Predicate := []
  filters : List Filter := []
  /-- How long an exchange may take; never zero. -/
  timeout : Option Duration := none
  breaker : Option RouteBreaker := none
  logLevel : Option Threshold := none

namespace Route

/-- A duration that is not zero. -/
def nonZero (d : Duration) : Option Duration := if d = 0 then none else some d

/-- A route from its id and the text of its URI. -/
def ofTexts (id uri : String) : Except ConfigError Route :=
  if id.isEmpty then .error .missingRouteId
  else match Url.parse (Bytes.ofString uri) with
    | .error e => .error (.invalidUri id uri e)
    | .ok url => if url.isWeb then .ok { id, uri := url } else .error (.routeUriNotHttp id)

/-- Whether a request passes all predicates, of which none is tried behind one that it fails. -/
def accepts (clock : Clock) (r : Http.RequestHead) (route : Route) : Except Panic Bool :=
  route.predicates.allM fun p => p.test clock r

/-- The URL that a request is sent to: the place of one URL with the path and the query of another. -/
def destinationOf (uri request : Url) : Url :=
  { (uri.setPath request.path).setQuery request.query with fragment := none }

/-- The URL that a request is sent to. -/
def destination (route : Route) (request : Url) : Url := destinationOf route.uri request

/-- The most that the loggers of an exchange log. -/
def logCap (route : Route) : Threshold := route.logLevel.getD (some .trace)

end Route

/-- Routes in order. -/
structure RoutingTable where
  routes : List Route := []

namespace RoutingTable

/-- The first route for a request. -/
def find? (t : RoutingTable) (clock : Clock) (r : Http.RequestHead) : Except Panic (Option Route) :=
  t.routes.findM? (Route.accepts clock r)

/-- All routes for a request, in order. -/
def findAll (t : RoutingTable) (clock : Clock) (r : Http.RequestHead) : Except Panic (List Route) :=
  t.routes.filterM (Route.accepts clock r)

/-- The route of an id. -/
def get? (t : RoutingTable) (id : String) : Option Route := t.routes.find? fun r => r.id == id

/-- How many routes there are. -/
def size (t : RoutingTable) : Nat := t.routes.length

end RoutingTable

end Gatehouse
