import Gatehouse.Assembly
import Gatehouse.Config.Decode
import Gatehouse.Gateway
import Gatehouse.Regex.Estimate

/-!
# Scenarios

A scenario describes requests, bodies, backends and policies as JSON values, so that a gateway can be
tried out without a network. Here its parts are read; a field that is missing has a default.
-/

namespace Gatehouse.Scenario

/-- The field of a value, or null. -/
def get (v : Json.Value) (key : String) : Json.Value := (v.field? key).getD .null

/-- The text in a field, or a default. -/
def getStr (v : Json.Value) (key : String) (default : String := "") : String :=
  ((get v key).string?).getD default

/-- The natural number in a field, or zero. -/
def getNat (v : Json.Value) (key : String) : Nat := (get v key).nat?.getD 0

/-- The items in a field, or none. -/
def getArr (v : Json.Value) (key : String) : List Json.Value := (get v key).array?.getD []

/-- Whether a field is true. -/
def getBool (v : Json.Value) (key : String) : Bool := (get v key).bool?.getD false

/-- Bytes whose repetitions nest at most `depth` deep. -/
def bytesWithin : (depth : Nat) → Json.Value → Bytes
  | _, .string s => .ofString s
  | 0, _ => []
  | depth + 1, v => match v.field? "hex", v.field? "repeat" with
    | some (.string h), _ => (Bytes.ofHex? (.ofString h)).getD []
    | _, some s => (List.replicate (getNat v "times") (bytesWithin depth s)).flatten
    | _, _ => []

/-- Bytes are given as a text, as hexadecimal digits or as a repetition. -/
def bytesIn : Json.Value → Bytes := bytesWithin Json.maxDepth

/-- An error whose sources nest at most `depth` deep. -/
def errWithin (depth : Nat) (v : Json.Value) : Error :=
  let text := getStr v "value"
  let source (_ : Unit) := match depth with
    | 0 => .internal ""
    | depth + 1 => errWithin depth (get v "source")
  match getStr v "kind" with
  | "RouteNotFound" => .routeNotFound text
  | "PreFilter" => .preFilter (getStr v "filter") (source ())
  | "PostFilter" => .postFilter (getStr v "filter") (source ())
  | "Route" => .route (getStr v "route") (source ())
  | "RateLimitExceeded" => .rateLimitExceeded (getNat v "remaining")
  | "DeadlineExceeded" => .deadlineExceeded
  | "Canceled" => .canceled
  | "CircuitOpen" => .circuitOpen text
  | "HalfOpenRequestExceeded" => .halfOpenExhausted text
  | "Upstream" => .backend text
  | "UpstreamStatus" => .backendStatus (getNat v "status")
  | "MissingArgument" => .build (.missing (getStr v "name"))
  | "InvalidArgument" => .build (.invalid (getStr v "name") (getStr v "expected"))
  | "UnknownBuilder" => .build (.unknown (getStr v "builder") (getStr v "name"))
  | "InvalidRequest" => .invalidRequest text
  | "Config" => .config (.other text)
  | "Body" => .body text
  | "Io" => .io text
  | _ => .internal text

/-- An error is given by its kind and what belongs to it. -/
def errIn : Json.Value → Error := errWithin Json.maxDepth

/-- A duration is the sum of its parts in seconds and fractions of a second. -/
def durIn (v : Json.Value) : Option Duration :=
  let part (key : String) (unit : Nat) := (get v key).nat?.map (· * unit)
  match [part "s" 1000000000, part "ms" 1000000, part "us" 1000, part "ns" 1].filterMap id with
  | [] => none
  | parts => some (parts.foldl (· + ·) 0)

/-- A clock is given by the moment at which it starts. -/
def clockIn (v : Json.Value) : Clock :=
  { start := (Timestamp.parse? (getStr v "now" "2030-01-01T00:00:00Z").toList).getD default }

/-- Header fields are given as pairs. -/
def headersIn (v : Json.Value) : Http.Headers := (getArr v "headers").filterMap fun
  | .array [.string n, value] => (Http.HeaderName.ofString? n).map (⟨·, bytesIn value⟩)
  | _ => none

/-- The target of a request, which is the root unless given. -/
def targetIn (v : Json.Value) : Http.Target :=
  (Http.Target.parse? (.ofString (getStr v "uri" "/"))).getD { rawPath := [0x2F] }

/-- The head of a request. -/
def headIn (v : Json.Value) : Http.RequestHead where
  method := .ofString (getStr v "method" "GET")
  target := targetIn v
  headers := headersIn v

/-- A chunk of a stream is data, trailers, a failure, a pause or an end of all progress. -/
def chunkIn (v : Json.Value) : Chunk :=
  match v.field? "error", v.field? "trailers", v.field? "delay_ms", v.field? "stall" with
  | some (.string t), _, _, _ => .frame (.failure t)
  | _, some _, _, _ => .frame .trailers
  | _, _, some d, _ => .delay (.ofMillis (d.nat?.getD 0))
  | _, _, _, some _ => .stall
  | _, _, _, _ => .frame (.data (bytesIn v))

/-- A stream, and the length that is declared for it. -/
def sourceIn (v : Json.Value) : Source × Option Nat :=
  match v.field? "chunks" with
  | some (.array chunks) => ({ chunks := chunks.map chunkIn }, (get v "len").nat?)
  | _ =>
    let bytes := if v.isNull then [] else bytesIn v
    (.ofBytes bytes, some bytes.length)

/-- A body. -/
def bodyIn (v : Json.Value) : Body :=
  let (source, len) := sourceIn v
  .ofSource source len

/-- An address and a port. -/
def endpointIn (v : Json.Value) (key : String) : Option Net.Endpoint :=
  (get v key).string?.bind fun s => Net.Endpoint.parse? s.toList

/-- A URL. -/
def urlIn (s : String) : Except Url.ParseError Url := Url.parse (.ofString s)

/-- A request whose URL is absolute. -/
def requestIn (v : Json.Value) : Except Url.ParseError Request := do
  let url ← urlIn (getStr v "url")
  let body := bodyIn (get v "body")
  return { url, method := .ofString (getStr v "method" "GET"), headers := headersIn v, body,
           contentLength := body.length, remote := endpointIn v "remote" }

/-- A level up to which is logged, which is all unless given. -/
def thresholdIn (v : Json.Value) (key : String := "global_level") : Threshold :=
  (Threshold.ofText? (getStr v key "trace")).getD (some .trace)

/-- Arguments of a builder. -/
def argsIn (v : Json.Value) : Except BuildError Args := Args.ofValue (get v "args")

/-- A double. -/
def floatIn (v : Json.Value) (key : String) : Float :=
  match get v key with
  | .number n => (Args.doubleOfNumber n).toFloat
  | _ => 0.0

/-- When a breaker trips: after failures in a row, after failures in total, or by their ratio. -/
def tripsIn (v : Json.Value) : Option (Counts → Bool) :=
  match (get v "consecutive").nat?, (get v "total").nat?, getArr v "ratio" with
  | some n, _, _ => some (BreakerPolicy.consecutive n)
  | _, some n, _ => some fun c => n ≤ c.totalFailures
  | _, _, [a, b, m] => some fun c => m.nat?.getD 0 ≤ c.requests &&
      a.nat?.getD 0 * c.requests ≤ c.totalFailures * b.nat?.getD 0
  | _, _, _ => none

/-- The policy of a breaker. -/
def policyIn (v : Json.Value) : BreakerPolicy where
  name := getStr v "name"
  maxRequests := getNat v "max_requests"
  interval := (durIn (get v "interval")).getD 0
  timeout := (durIn (get v "timeout")).getD 0
  trips := tripsIn (get v "trip")
  forgives := (get v "forgive").array?.map fun kinds e => kinds.any fun k => k.string? == some e.kind.name

/-- What becomes of a call under a breaker; where statuses are classified, those of servers that fail count as failures. -/
def fateIn (classify : Bool) : Json.Value → Breaker.CallFate Nat
  | .string "ok" => .value 200 none
  | .string _ => .panicked
  | v => match (get v "status").nat?, v.field? "kind" with
    | some n, none =>
      .value n (if classify && 500 ≤ n && n < 600 then some (.backendStatus n) else none)
    | _, _ => .error (errIn v)

/-- A response. -/
def responseIn (v : Json.Value) : Response :=
  { status := (get v "status").nat?.getD 200, headers := headersIn v, body := bodyIn (get v "body") }

/-- How a backend behaves. -/
def scriptIn (v : Json.Value) (tolerates : Bool) : Script where
  ignoresBody := getBool v "ignore_body"
  toleratesBody := tolerates
  delay := .ofMillis (getNat v "delay_ms")
  stalls := getBool v "stall"
  reply := if getBool v "panic" then .ok .panicked else match v.field? "fail" with
    | some .null | none => .ok (.response (responseIn v))
    | some e => .error (errIn e)

/-- A configuration. -/
def configIn (v : Json.Value) : Config :=
  match Config.ofNode (.ofValue (get v "config")) with
  | .ok c => c
  | .error _ => {}

/-- Names of builders with their arguments. -/
def specsIn (v : Json.Value) (key : String) : Except BuildError (List Spec) :=
  (getArr v key).mapM fun s => do return ⟨getStr s "name", ← argsIn s⟩

/-- A world at its start. -/
def worldIn (v : Json.Value) : World := { clock := clockIn v, threshold := thresholdIn v }

/-- A filter that notes its hooks in the journal and fails where it is told to. -/
def recorder (v : Json.Value) (label : String) : Filter :=
  let hook (part key : String) (w : World) (x : Exchange) : HookResult :=
    let w := { w with journal := w.journal ++ [label ++ part] }
    match v.field? key with
    | some e => Filter.failWith w x (errIn e)
    | none => Filter.finish w x
  .custom label (hook ".pre" "fail_pre") (hook ".post" "fail_post")

/-- A chain of filters: recorders, filters that do nothing, and registered ones. -/
def filtersIn (v : Json.Value) (key : String) : Except BuildError (List Filter) :=
  (getArr v key).mapM fun f => match f.field? "record", f.field? "inert" with
    | some (.string label), _ => .ok (recorder f label)
    | _, some _ => .ok (.inert "Inert")
    | _, _ => do (Filter.registry .estimated).build (getStr f "name") (← argsIn f)

/-- An exchange that begins on a route. -/
def exchangeIn (v : Json.Value) (w : World) : Except Url.ParseError Exchange := do
  let route := get v "route"
  let uri ← urlIn "http://backend/"
  let r : Route := { id := getStr route "id" "r", uri, timeout := (durIn (get route "timeout")).bind Route.nonZero,
                     logLevel := (get route "log_level").string?.bind Threshold.ofText? }
  return .begin_ r (← requestIn (get v "request")) w

/-- The value of an environment variable. -/
def envIn (v : Json.Value) (name : String) : Option String := ((get v "env").field? name).bind (·.string?)

/-- Moves a clock forward. -/
def tick (clock : Clock) (v : Json.Value) : Clock := clock.advance ((durIn v).getD 0)

end Gatehouse.Scenario
