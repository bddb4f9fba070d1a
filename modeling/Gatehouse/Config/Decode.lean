import Gatehouse.Config.Basic
import Gatehouse.Config.Node

/-!
# Reading a configuration from a tree

Each settings type is read from a tree by the names of its fields, which are written with hyphens.
Fields that are not given keep their defaults and unknown ones are skipped.
-/

namespace Gatehouse.Config

open Node (Given)

/-- A spec is a bare name, or a mapping with a name and arguments. The whole of it is read before
it is decided which. -/
def specOfNode : Node → Except Fault Spec
  | .scalar (.text name) _ => .ok ⟨name, {}⟩
  | .mapping fields => do
    if !Node.fieldsAreReadable fields then throw .unreadable
    let given ← Node.known ["name", "args"] fields
    let name ← given.require "name" fun
      | .scalar (.text name) _ => .ok name
      | _ => .error .wrongType
    let args ← given.get "args" (fun
      | .mapping fields => (Node.toFields [] fields).map Args.mk
      | _ => .error .wrongType) {}
    return ⟨name, args⟩
  | _ => .error .wrongType

/-- The settings of the server. -/
def Server.ofNode (n : Node) : Except Fault Server := do
  let given ← n.structure? ["address", "port", "read-header-timeout", "read-timeout",
    "write-timeout", "idle-timeout", "max-header-bytes", "shutdown-timeout"]
  let d : Server := {}
  return {
    address := ← given.get "address" Node.text d.address
    port := (← given.get "port" (Node.natBelow (Nat.pow 2 16)) d.port.toNat).toUInt16
    readHeaderTimeout := ← given.get "read-header-timeout" Node.duration d.readHeaderTimeout
    readTimeout := ← given.get "read-timeout" Node.duration d.readTimeout
    writeTimeout := ← given.get "write-timeout" Node.duration d.writeTimeout
    idleTimeout := ← given.get "idle-timeout" Node.duration d.idleTimeout
    maxHeaderBytes :=
      (← given.get "max-header-bytes" (Node.natBelow (Nat.pow 2 64)) d.maxHeaderBytes.toNat).toUInt64
    shutdownTimeout := ← given.get "shutdown-timeout" Node.duration d.shutdownTimeout }

/-- The settings of a breaker. -/
def BreakerSettings.ofNode (n : Node) : Except Fault BreakerSettings := do
  let given ← n.structure? ["max-requests", "interval", "timeout", "consecutive-failures"]
  let d : BreakerSettings := {}
  return {
    maxRequests := (← given.get "max-requests" (Node.natBelow (Nat.pow 2 32)) d.maxRequests.toNat).toUInt32
    interval := ← given.get "interval" Node.duration d.interval
    timeout := ← given.get "timeout" Node.duration d.timeout
    consecutiveFailures := (← given.get "consecutive-failures" (Node.natBelow (Nat.pow 2 64))
      d.consecutiveFailures.toNat).toUInt64 }

/-- The settings of a route. -/
def RouteEntry.ofNode (n : Node) : Except Fault RouteEntry := do
  let given ← n.structure? ["id", "uri", "predicates", "filters", "timeout", "circuit-breaker",
    "log-level"]
  return {
    id := ← given.require "id" Node.text
    uri := ← given.require "uri" Node.text
    predicates := ← given.get "predicates" (Node.list specOfNode) []
    filters := ← given.get "filters" (Node.list specOfNode) []
    timeout := ← given.get "timeout" (Node.optional Node.duration) none
    breaker := ← given.get "circuit-breaker" (Node.optional BreakerSettings.ofNode) none
    logLevel := ← given.get "log-level" (Node.optional Node.text) none }

/-- The files of the client. -/
def TlsFiles.ofNode (n : Node) : Except Fault TlsFiles := do
  let given ← n.structure? ["ca-file", "cert-file", "key-file"]
  return {
    ca := ← given.get "ca-file" (Node.optional Node.text) none
    cert := ← given.get "cert-file" (Node.optional Node.text) none
    key := ← given.get "key-file" (Node.optional Node.text) none }

/-- The settings of the client. -/
def Client.ofNode (n : Node) : Except Fault Client := do
  let given ← n.structure? ["connect-timeout", "pool-idle-timeout", "pool-max-idle-per-host",
    "insecure-skip-verify", "tls"]
  let d : Client := {}
  return {
    connectTimeout := ← given.get "connect-timeout" Node.duration d.connectTimeout
    poolIdleTimeout := ← given.get "pool-idle-timeout" Node.duration d.poolIdleTimeout
    poolMaxIdlePerHost := (← given.get "pool-max-idle-per-host" (Node.natBelow (Nat.pow 2 64))
      d.poolMaxIdlePerHost.toNat).toUInt64
    insecureSkipVerify := ← given.get "insecure-skip-verify" Node.bool d.insecureSkipVerify
    tls := ← given.get "tls" (Node.optional TlsFiles.ofNode) none }

/-- The routes and what they share. -/
def Gateway.ofNode (n : Node) : Except Fault Gateway := do
  let given ← n.structure? ["routes", "global-filters", "global-timeout", "httpclient"]
  return {
    routes := ← given.get "routes" (Node.list RouteEntry.ofNode) []
    globalFilters := ← given.get "global-filters" (Node.list specOfNode) []
    globalTimeout := ← given.get "global-timeout" (Node.optional Node.duration) none
    client := ← given.get "httpclient" Client.ofNode {} }

/-- The names of the log formats. -/
def LogFormat.names : List (String × LogFormat) := [("text", .text), ("json", .json)]

/-- A log format by its name. -/
def LogFormat.ofNode (n : Node) : Except Fault LogFormat := do
  match LogFormat.names.lookup (← n.text) with
  | some f => return f
  | none => throw .outOfRange

/-- The settings of the log. -/
def Logging.ofNode (n : Node) : Except Fault Logging := do
  let given ← n.structure? ["level", "format"]
  let d : Logging := {}
  return {
    level := ← given.get "level" Node.text d.level
    format := ← given.get "format" LogFormat.ofNode d.format }

/-- The whole configuration. -/
def ofNode (n : Node) : Except Fault Config := do
  let given ← n.structure? ["server", "gateway", "logging"]
  return {
    server := ← given.get "server" Server.ofNode {}
    gateway := ← given.get "gateway" Gateway.ofNode {}
    logging := ← given.get "logging" Logging.ofNode {} }

end Gatehouse.Config
