import Gatehouse.Config.Validate
import Gatehouse.Filter.Builder
import Gatehouse.Route

/-!
# Assembling a gateway

The routes and the global filters of a configuration are built by name from registries. Each filter
that keeps buckets gets a place of its own for them, and the breakers of the routes begin: where the
end of the first generation of one cannot be told, that panics.
-/

namespace Gatehouse

/-- The predicates and the filters that a configuration can name. -/
structure Registries where
  predicates : Registry Predicate
  filters : Registry Filter

/-- The registries that there are from the start, which build regular expressions within a
capacity. -/
def Registries.builtIn (room : Regex.Capacity) : Registries where
  predicates := Predicate.registry room
  filters := Filter.registry room

/-- A gateway that is built from its configuration. -/
structure Assembly where
  table : RoutingTable
  globals : List Filter

namespace Assembly

/-- Why a gateway is not assembled. -/
inductive Fault
  | refused (e : ConfigError)
  | panicked (panic : Panic)
  deriving DecidableEq, Repr, Inhabited

/-- A step that may refuse the configuration. -/
def refusing {α : Type} (step : Except ConfigError α) : Except Fault α := step.mapError .refused

/-- Builds the instances that specs name; `annotate` says whose they are when one fails. -/
def buildAll {α : Type} (registry : Registry α) (annotate : String → BuildError → ConfigError) :
    List Spec → Except ConfigError (List α)
  | [] => .ok []
  | spec :: rest =>
    match registry.build spec.name spec.args with
    | .error cause => .error (annotate spec.name cause)
    | .ok a => (buildAll registry annotate rest).map (a :: ·)

/-- The policy of a route's breaker. -/
def policyOf (id : String) (b : Config.BreakerSettings) : BreakerPolicy where
  name := id
  maxRequests := b.maxRequests.toNat
  interval := b.interval
  timeout := b.timeout
  trips := some (BreakerPolicy.consecutive b.consecutiveFailures.toNat)

/-- Begins the breaker of a route, if there is to be one. -/
def beginBreaker (now : Duration) (id : String) :
    Option Config.BreakerSettings → Except Fault (Option RouteBreaker)
  | none => .ok none
  | some settings =>
    match Breaker.begin_ (policyOf id settings) now with
    | .error panic => .error (.panicked panic)
    | .ok begun => .ok (some ⟨policyOf id settings, begun⟩)

/-- The threshold of a route's loggers. -/
def levelOf (id : String) : Option String → Except ConfigError (Option Threshold)
  | none => .ok none
  | some text =>
    match Threshold.ofText? text with
    | some level => .ok (some level)
    | none => .error (.invalidLogLevel id text)

section Build

variable (registries : Registries) (now : Duration)

/-- Builds a route. One without a timeout has the global one, and a timeout of zero is none. -/
def buildRoute (globalTimeout : Option Duration) (r : Config.RouteEntry) : Except Fault Route := do
  let predicates ←
    refusing (buildAll registries.predicates (.specFailed r.id "predicate") r.predicates)
  let filters ← refusing (buildAll registries.filters (.specFailed r.id "filter") r.filters)
  let breaker ← beginBreaker now r.id r.breaker
  let logLevel ← refusing (levelOf r.id r.logLevel)
  let route ← refusing (Route.ofTexts r.id r.uri)
  return { route with
    predicates, filters, breaker, logLevel
    timeout := (r.timeout <|> globalTimeout).bind Route.nonZero }

/-- Builds routes in order. -/
def buildRoutes (globalTimeout : Option Duration) :
    List Config.RouteEntry → Except Fault (List Route)
  | [] => .ok []
  | r :: rest => do
    let route ← buildRoute registries now globalTimeout r
    return route :: (← buildRoutes globalTimeout rest)

end Build

/-- Gives filters the places from `start` on. -/
def placeFilters : (start : Nat) → List Filter → List Filter
  | _, [] => []
  | start, f :: fs => f.at_ start :: placeFilters (start + 1) fs

/-- Gives the filters of routes the places from `start` on. -/
def placeRoutes : (start : Nat) → List Route → List Route
  | _, [] => []
  | start, r :: rs =>
    { r with filters := placeFilters start r.filters } :: placeRoutes (start + r.filters.length) rs

/-- The routing table of a configuration; the global filters have the first places. -/
def buildTable (registries : Registries) (now : Duration) (g : Config.Gateway) :
    Except Fault RoutingTable := do
  let routes ← buildRoutes registries now g.globalTimeout g.routes
  return ⟨placeRoutes g.globalFilters.length routes⟩

/-- The global filters of a configuration. -/
def buildGlobals (registries : Registries) (g : Config.Gateway) :
    Except ConfigError (List Filter) := do
  return placeFilters 0 (← buildAll registries.filters .globalFilterFailed g.globalFilters)

/-- Builds the routes of a configuration at an instant, then its global filters. -/
def ofConfig (registries : Registries) (now : Duration) (c : Config) : Except Fault Assembly := do
  let table ← buildTable registries now c.gateway
  return { table, globals := ← refusing (buildGlobals registries c.gateway) }

end Assembly

/-- A gateway with its configuration, which is valid. -/
structure Application where
  config : Config
  assembly : Assembly

namespace Application

/-- Validates a configuration and assembles its gateway. -/
def ofConfig (registries : Registries) (now : Duration) (config : Config) :
    Except Assembly.Fault Application := do
  Assembly.refusing config.validate
  return { config, assembly := ← Assembly.ofConfig registries now config }

end Application

end Gatehouse
