import Gatehouse.Filter.Basic
import Gatehouse.Predicate.Builder

/-!
# Building filters

The filters that routes can name, with the limiters and key functions that a rate limit can name in
turn.
-/

namespace Gatehouse

/-- The rate and the burst of a limiter. -/
structure LimiterSpec where
  rate : Float
  burst : Nat

/-- The limiters that there are from the start. -/
def limiterRegistry : Registry LimiterSpec where
  kind := "rate limiter"
  builders := [
    ("in-memory", fun args => do
      let rate ← args.getDouble "rate"
      if !(rate.isFinite && rate.toFloat > 0.0) then
        throw (.invalid "rate" "a positive number of tokens per second")
      let burst ← args.getNat "burst"
      if burst = 0 then throw (.invalid "burst" "at least 1")
      return ⟨rate.toFloat, burst⟩)]

/-- The key functions that there are from the start. -/
def keyRegistry : Registry KeyFunction where
  kind := "key function"
  builders := [
    ("ip", fun _ => .ok .ip),
    ("path", fun _ => .ok .path),
    ("path-method", fun _ => .ok .pathMethod),
    ("header", fun args => do return .header (← headerArgument (← args.getString "name"))),
    ("query", fun args => do return .query (← args.getString "name"))]

namespace Filter

/-- The header value of an argument. -/
def headerValue (text : String) : Except BuildError Bytes :=
  let value := Bytes.ofString text
  if value.all Http.isValueByte then .ok value
  else .error (.invalid "value" "a valid header value")

/-- Builds a filter that adds or sets a header. -/
def headerBuilder (side : HeaderSide) (edit : Bytes → HeaderEdit) (args : Args) :
    Except BuildError Filter := do
  let name ← args.getString "name"
  let value ← headerValue (← args.getString "value")
  return .header side (← headerArgument name) (edit value)

/-- Builds a filter that removes a header. -/
def removeBuilder (side : HeaderSide) (args : Args) : Except BuildError Filter := do
  return .header side (← headerArgument (← args.getString "name")) .remove

/-- A replacement in which `$\x7b` may be written with a backslash before the brace. -/
def unescapeBraces : List Char → List Char
  | '$' :: '\\' :: '\x7b' :: rest => '$' :: '\x7b' :: unescapeBraces rest
  | c :: rest => c :: unescapeBraces rest
  | [] => []

/-- A rewriting of paths, from the texts of its pattern and its replacement. -/
def pathEditOf (room : Regex.Capacity) (regexp replacement : String) :
    Except BuildError Filter := do
  return .pathEdit (← compileRegex room regexp) (unescapeBraces replacement.toList)

/-- The level that a text names. -/
def levelOf (text : String) : Except BuildError Level :=
  match Level.ofText? text with
  | some level => .ok level
  | none => .error (.invalid "level" "one of trace, debug, info, warn, error")

/-- The most bytes of a body that a logger shows, unless told otherwise. -/
def defaultMaxBody : Nat := 4096

/-- Builds a logger. -/
def loggerBuilder (args : Args) : Except BuildError Filter := do
  let level ← match ← args.getString? "level" with
    | some text => levelOf text
    | none => pure .info
  let maxBody ← if args.contains "max-body-bytes" then args.getNat "max-body-bytes"
    else pure defaultMaxBody
  return .logger level maxBody

/-- Builds a rate limit, in memory and by address unless told otherwise. -/
def rateLimitBuilder (args : Args) : Except BuildError Filter := do
  let limiter := (← args.getSpec? "limiter").getD ⟨"in-memory", {}⟩
  let key := (← args.getSpec? "key").getD ⟨"ip", {}⟩
  let ⟨rate, burst⟩ ← limiterRegistry.build limiter.name limiter.args
  return .rateLimit 0 rate burst (← keyRegistry.build key.name key.args)

/-- The filters that there are from the start. -/
def registry (room : Regex.Capacity) : Registry Filter where
  kind := "filter"
  builders := [
    ("AddRequestHeader", headerBuilder .request .add),
    ("SetRequestHeader", headerBuilder .request .set),
    ("RemoveRequestHeader", removeBuilder .request),
    ("AddResponseHeader", headerBuilder .response .add),
    ("SetResponseHeader", headerBuilder .response .set),
    ("RemoveResponseHeader", removeBuilder .response),
    ("RewritePath", fun args => do
      pathEditOf room (← args.getString "regexp") (← args.getString "replacement")),
    ("RequestResponseLogger", loggerBuilder),
    ("RateLimit", rateLimitBuilder)]

end Filter

end Gatehouse
