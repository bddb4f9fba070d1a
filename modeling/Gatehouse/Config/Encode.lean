import Gatehouse.Config.Decode

/-!
# Writing a configuration as a value

`Config.toValue` is the JSON value that `Config.ofNode` reads back, with the fields of each settings
type in the order in which they are declared. Durations are texts with units. Settings that are left
out, and empty arguments, are not written.
-/

namespace Gatehouse.Config

open Json (Value)

/-- A duration as a text. -/
def durationValue (d : Duration) : Value := .string d.format

/-- A duration that may be left out, as a text or `null`. -/
def durationOptionValue (d : Option Duration) : Value := (d.map durationValue).getD .null

/-- The field of a setting that may be left out. -/
def optionalField {α : Type} (name : String) (write : α → Value) : Option α → Json.Fields
  | none => []
  | some a => [(name, write a)]

/-- The value of a spec. -/
def specValue (s : Spec) : Value :=
  .object ([("name", .string s.name)] ++
    (if s.args.isEmpty then [] else [("args", .object s.args.fields)]))

/-- The value of the server's settings. -/
def Server.toValue (s : Server) : Value := .object [
  ("address", .string s.address),
  ("port", .ofNat s.port.toNat),
  ("read-header-timeout", durationValue s.readHeaderTimeout),
  ("read-timeout", durationValue s.readTimeout),
  ("write-timeout", durationValue s.writeTimeout),
  ("idle-timeout", durationValue s.idleTimeout),
  ("max-header-bytes", .ofNat s.maxHeaderBytes.toNat),
  ("shutdown-timeout", durationValue s.shutdownTimeout)]

/-- The value of a breaker's settings. -/
def BreakerSettings.toValue (b : BreakerSettings) : Value := .object [
  ("max-requests", .ofNat b.maxRequests.toNat),
  ("interval", durationValue b.interval),
  ("timeout", durationValue b.timeout),
  ("consecutive-failures", .ofNat b.consecutiveFailures.toNat)]

/-- The value of a route's settings. -/
def RouteEntry.toValue (r : RouteEntry) : Value := .object (
  [("id", .string r.id), ("uri", .string r.uri),
    ("predicates", .array (r.predicates.map specValue)),
    ("filters", .array (r.filters.map specValue))] ++
  optionalField "timeout" durationValue r.timeout ++
  optionalField "circuit-breaker" BreakerSettings.toValue r.breaker ++
  optionalField "log-level" .string r.logLevel)

/-- The value of a path that may be left out. -/
def pathValue : Option String → Value
  | none => .null
  | some s => .string s

/-- The value of the client's files. -/
def TlsFiles.toValue (t : TlsFiles) : Value := .object [
  ("ca-file", pathValue t.ca), ("cert-file", pathValue t.cert), ("key-file", pathValue t.key)]

/-- The value of the client's settings. -/
def Client.toValue (c : Client) : Value := .object ([
  ("connect-timeout", durationValue c.connectTimeout),
  ("pool-idle-timeout", durationValue c.poolIdleTimeout),
  ("pool-max-idle-per-host", .ofNat c.poolMaxIdlePerHost.toNat),
  ("insecure-skip-verify", .bool c.insecureSkipVerify)] ++
  optionalField "tls" TlsFiles.toValue c.tls)

/-- The value of the routes and what they share. -/
def Gateway.toValue (g : Gateway) : Value := .object (
  [("routes", .array (g.routes.map RouteEntry.toValue)),
    ("global-filters", .array (g.globalFilters.map specValue))] ++
  optionalField "global-timeout" durationValue g.globalTimeout ++
  [("httpclient", g.client.toValue)])

/-- The name of a log format. -/
def LogFormat.name : LogFormat → String
  | .text => "text"
  | .json => "json"

/-- The value of the log's settings. -/
def Logging.toValue (l : Logging) : Value := .object [
  ("level", .string l.level), ("format", .string l.format.name)]

/-- The value of a configuration. -/
def toValue (c : Config) : Value := .object [
  ("server", c.server.toValue), ("gateway", c.gateway.toValue), ("logging", c.logging.toValue)]

end Gatehouse.Config
