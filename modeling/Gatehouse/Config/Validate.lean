import Gatehouse.Config.Basic
import Gatehouse.Error
import Gatehouse.Log
import Gatehouse.Url.Basic

/-!
# Valid configurations

`Config.validate` accepts a configuration or names the first thing that is wrong with it, in the
order server, global filters, routes, client. `Config.remarks` are what is odd about one that it
accepts.
-/

namespace Gatehouse.Config

/-- Refuses a list of specs with a blank name in it; positions count from one. -/
def checkSpecs (owner kind : String) (specs : List Spec) : Except ConfigError Unit :=
  match specs.findIdx? fun s => Text.isBlankText s.name with
  | some i => .error (.blankSpecName owner kind (i + 1))
  | none => .ok ()

/-- The settings of the server. -/
def checkServer (s : Server) : Except ConfigError Unit := do
  if s.port = 0 then throw .portZero
  if s.maxHeaderBytes = 0 then throw .headerLimitZero

/-- The URI of a route is the URL of a web server. -/
def checkUri (id uri : String) : Except ConfigError Unit :=
  match Url.parse (.ofString uri) with
  | .error cause => .error (.invalidUri id uri cause)
  | .ok u => if u.isWeb then .ok () else .error (.unsupportedUri id uri)

/-- A log level of a route is the name or the number of one. -/
def checkLogLevel (id : String) : Option String → Except ConfigError Unit
  | none => .ok ()
  | some level =>
    if (Threshold.ofText? level).isSome then .ok () else .error (.invalidLogLevel id level)

/-- A breaker opens after some failures. -/
def checkBreaker (id : String) : Option BreakerSettings → Except ConfigError Unit
  | none => .ok ()
  | some b => if b.consecutiveFailures = 0 then .error (.zeroFailureThreshold id) else .ok ()

/-- A route, after routes with the ids `seen`. -/
def checkRoute (seen : List String) (r : RouteEntry) : Except ConfigError Unit := do
  if Text.isBlankText r.id then throw .blankRouteId
  if r.id ∈ seen then throw (.duplicateRouteId r.id)
  checkUri r.id r.uri
  let owner := s!"route '{r.id}'"
  checkSpecs owner "predicate" r.predicates
  checkSpecs owner "filter" r.filters
  checkLogLevel r.id r.logLevel
  checkBreaker r.id r.breaker

/-- Routes, after routes with the ids `seen`. -/
def checkRoutes (seen : List String) : List RouteEntry → Except ConfigError Unit
  | [] => .ok ()
  | r :: rest => do
    checkRoute seen r
    checkRoutes (r.id :: seen) rest

/-- A certificate and its key are given together. -/
def checkClient (c : Client) : Except ConfigError Unit :=
  if c.tls.any fun t => t.cert.isSome != t.key.isSome then .error .unpairedTlsFiles else .ok ()

/-- Accepts a configuration, or names the first thing that is wrong with it. -/
def validate (c : Config) : Except ConfigError Unit := do
  checkServer c.server
  if c.gateway.routes.isEmpty then throw .noRoutes
  checkSpecs "global-filters" "filter" c.gateway.globalFilters
  checkRoutes [] c.gateway.routes
  checkClient c.gateway.client

/-- Something odd about a configuration. -/
inductive Remark
  | unconditionalRoute (id : String)
  | unverifiedBackends
  deriving DecidableEq, Repr, Inhabited

/-- What is odd about a configuration, in the order in which validation comes by it. -/
def remarks (c : Config) : List Remark :=
  ((c.gateway.routes.filter fun r => r.predicates.isEmpty).map fun r => .unconditionalRoute r.id) ++
    (if c.gateway.client.insecureSkipVerify then [.unverifiedBackends] else [])

end Gatehouse.Config
