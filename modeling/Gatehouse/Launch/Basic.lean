import Gatehouse.Assembly
import Gatehouse.Config.Load
import Gatehouse.Inspect
import Gatehouse.Launch.CommandLine
import Gatehouse.Launch.Server
import Gatehouse.Log.Directive
import Gatehouse.Tls.Client

/-!
# Launching the gateway

`Application.start` takes a configuration to a gateway that is ready, with records of what it does on
the way. `Launch.run` is the whole program: from its arguments, the environment and the files to the
exit code, the records that pass the log directives, and the report of an error.
-/

namespace Gatehouse

namespace Application

/-- Where the records of an assembly come from. -/
def assemblyOrigin : String := "sluice_runtime::assemble"

/-- Where the remarks about a configuration come from. -/
def remarkOrigin : String := "sluice_config::validator"

/-- Leaves a record of a remark. -/
def noteRemark {ε : Type} : Config.Remark → Logged ε Unit
  | .unconditionalRoute id =>
    Logged.note remarkOrigin .warn "Route has no predicates and matches every request" [("route", .text id)]
  | .unverifiedBackends =>
    Logged.note remarkOrigin .warn "Backend TLS certificate verification is disabled"

/-- The names of filters in one line. -/
def filterNames (fs : List Filter) : String := Inspect.list ((Filter.names fs).map Inspect.text)

/-- Leaves a record of a route. -/
def noteRoute {ε : Type} (r : Route) : Logged ε Unit :=
  Logged.note assemblyOrigin .debug "Route loaded" [("route", .text r.id), ("uri", .text r.uri.toText),
    ("predicates", .number r.predicates.length), ("filters", .text (filterNames r.filters)),
    ("timeout", .text (Inspect.optional Inspect.duration r.timeout))]

/-- Prepares the client for backends. -/
def prepareClient (files : Files) (c : Config.Client) : Logged ConfigError Tls.Client := do
  let tls ← (Tls.Client.load files c).adapt ConfigError.pem
  Logged.note "sluice_proxy::client" .debug "Backend client created" [
    ("connect_timeout", .text (Inspect.duration c.connectTimeout)),
    ("pool_idle_timeout", .text (Inspect.duration c.poolIdleTimeout)),
    ("pool_max_idle_per_host", .number c.poolMaxIdlePerHost.toNat)]
  return tls

/-- Prepares the client, validates the configuration and assembles the gateway at an instant. -/
def start (registries : Registries) (now : Duration) (files : Files) (config : Config) :
    Logged Assembly.Fault Application := do
  let _ ← (prepareClient files config.gateway.client).adapt .refused
  ExceptT.mk (pure (Assembly.refusing config.validate))
  config.remarks.forM noteRemark
  let table ← ExceptT.mk (pure (Assembly.buildTable registries now config.gateway))
  table.routes.forM noteRoute
  let globals ← ExceptT.mk (pure (Assembly.refusing (Assembly.buildGlobals registries config.gateway)))
  Logged.note assemblyOrigin .info "Gateway assembled" [("routes", .number table.size),
    ("global_filters", .text (filterNames globals))]
  return { config, assembly := { table, globals } }

end Application

namespace Launch

/-- A signal that ends the program. -/
inductive Signal
  | terminate
  | interrupt
  deriving DecidableEq, Repr, Inhabited

/-- The name of a signal. -/
def Signal.name : Signal → String
  | .terminate => "SIGTERM"
  | .interrupt => "SIGINT"

/-- What the program finds around it. -/
structure Host where
  env : Config.Environment
  files : Files
  /-- What there is room for in regular expressions. -/
  room : Regex.Capacity
  /-- What the monotonic clock shows when the program starts. -/
  now : Duration := 0
  /-- Listens at an address: the address that is listened at, or why that is not possible. -/
  listen : String → Except String String
  /-- The signal that comes once the server listens. -/
  signal : Signal := .terminate

/-- How the program ends. -/
structure Outcome where
  code : Nat
  /-- What is printed as it is. -/
  output : List String := []
  records : List Record := []
  format : Config.LogFormat := .text
  /-- The report of an error. -/
  report : List String := []

/-- The name of the program with its version. -/
def version : String := "sluice 0.1.0"

/-- Where the program's own records come from. -/
def origin : String := "sluice"

/-- The lines of a text, the first behind `first` and the others behind `other`. -/
def indented (first other text : String) : List String :=
  match text.splitOn "\n" with
  | [] => []
  | line :: rest => (first ++ line) :: rest.map (other ++ ·)

/-- The report of an error with its causes; several causes are numbered. -/
def report (message : String) (causes : List String) : List String :=
  indented "Error: " "" message ++ match causes with
    | [] => []
    | [cause] => ["", "Caused by:"] ++ indented "    " "    " cause
    | _ => ["", "Caused by:"] ++
      (causes.zipIdx.map fun (cause, i) => indented s!"    {i}: " "       " cause).flatten

/-- The directives of the environment if they can be read, or else those of a text. -/
def directives (env : Config.Environment) (level : String) :
    Except Log.DirectiveFault Log.Directives :=
  match (env "RUST_LOG").map Log.Directives.parse with
  | some (.ok ds) => .ok ds
  | _ => Log.Directives.parse level

/-- Runs with log directives that let through the records; directives that cannot be read end the
program before. -/
def logging (host : Host) (level : String) (format : Config.LogFormat)
    (run : Outcome) : Outcome :=
  match directives host.env level with
  | .error fault => { code := 1, report := report s!"invalid log level '{level}'" fault.causes }
  | .ok ds => { run with format, records := run.records.filter ds.allows }

/-- A program that fails with a record. -/
def failing (message : String) (fields : List (String × FieldValue)) : Outcome where
  code := 1
  records := [{ level := .error, message, fields, origin }]

/-- The record of a configuration that is loaded. -/
def loaded (path : String) (c : Config) : Record where
  level := .info
  message := "Configuration loaded"
  fields := [("path", .text path), ("address", .text c.server.address),
    ("port", .number c.server.port.toNat), ("routes", .number c.gateway.routes.length),
    ("global_filters", .number c.gateway.globalFilters.length)]
  origin := origin

/-- Serves until a signal comes. -/
def serve (host : Host) (app : Application) : Outcome :=
  let address := app.config.listenAddress
  match host.listen address with
  | .error reason =>
    { code := 1, report := report (Error.config (.bindFailed address reason)).message [] }
  | .ok listen =>
    let noticed : List Record := [
      { level := .info, message := "Received " ++ host.signal.name, origin := Server.shutdownOrigin },
      { level := .info, message := "Shutdown signal triggered", origin := Server.shutdownOrigin }]
    let routes := app.assembly.table.size
    { code := 0
      records := match (Server.serve app.config.server routes listen [] {}).2 with
        | [] => []
        | starting :: rest => starting :: (noticed ++ rest ++
          [{ level := .info, message := "Server stopped", origin }]) }

/-- Starts the gateway of a configuration, and serves unless it was to be checked only. -/
def start (host : Host) (path : String) (c : Config) (check : Bool) : Outcome :=
  let (result, records) :=
    (Application.start (.builtIn host.room) host.now host.files c).collect
  let before := loaded path c :: records
  match result with
  | .error (.panicked panic) => { code := 101, records := before, report := [panic.payload] }
  | .error (.refused e) =>
    { code := 1, records := before
      report := report "failed to assemble gateway" [(Error.config e).message] }
  | .ok app =>
    if check then
      { code := 0
        records := before ++ [{ level := .info, message := "Configuration is valid", origin }] }
    else
      let served := serve host app
      { served with records := before ++ served.records }

/-- Carries out a command line. -/
def carryOut (host : Host) (c : CommandLine) : Outcome :=
  let level := c.logLevel <|> host.env "SLUICE_LOG_LEVEL"
  match c.config with
  | none =>
    logging host (level.getD "info") .text (failing "configuration file path is required" [])
  | some path =>
    match Config.loadValid host.env path (host.files path) with
    | .error e =>
      logging host (level.getD "info") .text (failing "Failed to load configuration"
        [("path", .text path), ("error", .text (Error.config e).message)])
    | .ok config =>
      let server := { config.server with port := c.port.getD config.server.port }
      logging host (level.getD config.logging.level) config.logging.format
        (start host path { config with server } c.check)

/-- The program. -/
def run (host : Host) (args : List String) : Outcome :=
  match CommandLine.parse args with
  | .run c => carryOut host c
  | .version => { code := 0, output := [version] }
  | .help => { code := 0 }
  | .misuse => { code := 2 }

end Launch

end Gatehouse
