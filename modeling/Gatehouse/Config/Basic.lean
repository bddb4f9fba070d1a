import Gatehouse.Args

/-!
# Configuration

The settings of a gateway with their defaults: the server, the routes with their filters and
breakers, the client that talks to backends, and the log.
-/

namespace Gatehouse

namespace Config

/-- The settings of the server. -/
structure Server where
  address : String := "0.0.0.0"
  port : UInt16 := 8000
  /-- How long the head of a request may take. -/
  readHeaderTimeout : Duration := .ofSeconds 2
  /-- How long the body of a request may take. -/
  readTimeout : Duration := .ofSeconds 10
  /-- How long a write may stall. -/
  writeTimeout : Duration := .ofSeconds 10
  /-- How long a connection may be idle. -/
  idleTimeout : Duration := .ofSeconds 60
  maxHeaderBytes : UInt64 := 1048576
  /-- How long requests may run on after shutdown begins. -/
  shutdownTimeout : Duration := .ofSeconds 30
  deriving DecidableEq, Repr, Inhabited

/-- The settings of a route's circuit breaker. -/
structure BreakerSettings where
  maxRequests : UInt32 := 1
  /-- How long outcomes are counted; none is forgotten if zero. -/
  interval : Duration := 0
  timeout : Duration := .ofSeconds 60
  consecutiveFailures : UInt64 := 5
  deriving DecidableEq, Repr, Inhabited

/-- The settings of a route. -/
structure RouteEntry where
  id : String
  uri : String
  predicates : List Spec := []
  filters : List Spec := []
  timeout : Option Duration := none
  breaker : Option BreakerSettings := none
  logLevel : Option String := none
  deriving Repr, Inhabited

/-- The PEM files of the backend client. -/
structure TlsFiles where
  ca : Option String := none
  cert : Option String := none
  key : Option String := none
  deriving DecidableEq, Repr, Inhabited

/-- The settings of the backend client. -/
structure Client where
  connectTimeout : Duration := .ofSeconds 10
  poolIdleTimeout : Duration := .ofSeconds 90
  poolMaxIdlePerHost : UInt64 := 32
  insecureSkipVerify : Bool := false
  tls : Option TlsFiles := none
  deriving DecidableEq, Repr, Inhabited

/-- The routes, what they share, and the client. -/
structure Gateway where
  routes : List RouteEntry := []
  globalFilters : List Spec := []
  globalTimeout : Option Duration := none
  client : Client := {}
  deriving Repr, Inhabited

/-- How a log line is written. -/
inductive LogFormat
  | text
  | json
  deriving DecidableEq, Repr, Inhabited

/-- The settings of the log. -/
structure Logging where
  level : String := "info"
  format : LogFormat := .text
  deriving DecidableEq, Repr, Inhabited

end Config

/-- The settings of a gateway. -/
structure Config where
  server : Config.Server := {}
  gateway : Config.Gateway := {}
  logging : Config.Logging := {}
  deriving Repr, Inhabited

/-! ## Building a configuration in steps -/

namespace Config

/-- Appends a route. -/
def addRoute (c : Config) (r : RouteEntry) : Config :=
  { c with gateway := { c.gateway with routes := c.gateway.routes ++ [r] } }

/-- Appends a filter that runs before the filters of every route. -/
def addGlobalFilter (c : Config) (s : Spec) : Config :=
  { c with gateway := { c.gateway with globalFilters := c.gateway.globalFilters ++ [s] } }

/-- Where the server listens. -/
def listenAddress (c : Config) : String := s!"{c.server.address}:{c.server.port}"

end Config

end Gatehouse
