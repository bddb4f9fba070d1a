import Gatehouse.Config.Basic
import Gatehouse.Log.Record
import Gatehouse.Shutdown

/-!
# The life of a server

A server listens until the shutdown is triggered, then waits for its connections to close, each of
which does so after some time or never, and at last aborts what still runs.
-/

namespace Gatehouse.Server

/-- Where the records of a server come from. -/
def origin : String := "sluice_runtime::server"

/-- Where the records of a shutdown come from. -/
def shutdownOrigin : String := "sluice_runtime::shutdown"

/-- A limit of zero is none. -/
def limit (d : Duration) : Option Duration := if d = 0 then none else some d

/-- Whether all connections close within a time. -/
def closesWithin (timeout : Duration) (connections : List (Option Duration)) : Bool :=
  connections.all fun closing => closing.any (· ≤ timeout)

/-- A record of a server. -/
def record (level : Level) (message : String) (fields : List (String × FieldValue) := []) : Record :=
  { level, message, fields, origin }

/-- The record of a server that begins to listen. -/
def starting (listen : String) (routes : Nat) : Record :=
  record .info "Server starting" [("listen", .text listen), ("routes", .number routes)]

/-- The record of a server that hears of the shutdown. -/
def stopping : Record := record .info "Shutdown signal received"

/-- Waits for the connections that are there, and aborts what still runs after the timeout. -/
def drain (timeout : Duration) (connections : List (Option Duration)) (s : Shutdown) :
    Shutdown × List Record :=
  let waiting := record .info "Waiting for in-flight requests to complete"
    [("active_connections", .number connections.length), ("timeout_secs", .number timeout.seconds)]
  if closesWithin timeout connections then
    (s, [waiting, record .info "All connections closed, shutting down cleanly"])
  else
    let left := connections.countP fun closing => !closing.any (· ≤ timeout)
    (s.abort, [waiting, record .warn "Shutdown timeout reached, aborting requests"
      [("active_connections", .number left)]])

/-- Serves until the shutdown; when it has been triggered before, the server does not listen at all. -/
def serve (config : Config.Server) (routes : Nat) (listen : String)
    (connections : List (Option Duration)) (s : Shutdown) : Shutdown × List Record :=
  let (after, closing) := drain config.shutdownTimeout connections s.trigger
  (after, starting listen routes :: ((if s.triggered then [] else [stopping]) ++ closing))

end Gatehouse.Server
