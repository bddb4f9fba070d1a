import Gatehouse.Assembly
import Gatehouse.Gateway
import Gatehouse.Inspect

/-!
# What a scenario shows

The results of a scenario as JSON values.
-/

namespace Gatehouse.Scenario

/-- An object; the order of its fields does not matter. -/
def obj (fields : List (String × Json.Value)) : Json.Value := .object fields

/-- A list. -/
def arr (items : List Json.Value) : Json.Value := .array items

/-- A text. -/
def str (s : String) : Json.Value := .string s

/-- A natural number. -/
def num (n : Nat) : Json.Value := .ofNat n

/-- The 64-bit hash of Fowler, Noll and Vo: each byte is taken in before the product. -/
def fnv (bs : Bytes) : UInt64 :=
  bs.foldl (fun h b => (h ^^^ b.toUInt64) * 0x100000001b3) 0xcbf29ce484222325

/-- Bytes as a text or as hexadecimal digits; many bytes by their number and their hash. -/
def bytesOut (bs : Bytes) : Json.Value :=
  if 4096 < bs.length then
    obj [("len", num bs.length), ("fnv1a", str (Double.toHex ⟨fnv bs⟩))]
  else match Utf8.decode? bs with
    | some s => str s
    | none => obj [("hex", str (Bytes.toHex bs))]

/-- A number as decimal digits. -/
def natText (n : Nat) : Json.Value := str (toString n)

/-- Arguments of a builder. -/
def argsValue (args : Args) : Json.Value := .object args.fields

/-- Header fields, sorted by name. -/
def headersOut (hs : Http.Headers) : Json.Value :=
  arr (hs.sorted.map fun f => arr [str (Bytes.toLatin f.name.text), bytesOut f.value])

/-- A text that may be missing. -/
def optStr (s : Option String) : Json.Value := (s.map str).getD .null

/-- A number that may be missing. -/
def optNat (n : Option Nat) : Json.Value := (n.map num).getD .null

/-- A duration in nanoseconds that may be missing. -/
def durOut (d : Option Duration) : Json.Value := (d.map natText).getD .null

/-- A URL. -/
def urlOut (u : Url) : Json.Value := str u.toText

/-- A field of a log event. -/
def fieldOut : FieldValue → Json.Value
  | .text s => str s
  | .number n => num n
  | .lines ls => arr (ls.map str)

/-- A text in capitals. -/
def upper (s : String) : String := s.map Char.toUpper

/-- A log event. -/
def eventOut (e : Event) : Json.Value :=
  obj [("level", str (upper e.level.name)), ("message", str e.message),
    ("fields", obj (e.fields.map fun (k, x) => (k, fieldOut x)))]

/-- A log. -/
def logOut (es : List Event) : Json.Value := arr (es.map eventOut)

/-- The bits of a double. -/
def floatOut (x : Float) : Json.Value := str (Double.ofFloat x).toHex

/-- The decision of a limiter. -/
def decisionOut (d : Decision) : Json.Value := arr [.bool d.allowed, num d.remaining]

/-- What is known about a body. -/
def bodyInfo (b : Body) : Json.Value :=
  obj [("len", optNat b.length), ("is_empty", .bool b.isEmpty),
    ("captured", (b.captured.map bytesOut).getD .null), ("is_captured", .bool b.captured.isSome),
    ("closed", .bool b.closed), ("end", .bool b.isEndStream), ("hint", hintOut b.sizeHint)]
where
  /-- The bounds of the bytes to come. -/
  hintOut : Option Nat → Json.Value
    | some n => arr [num n, num n]
    | none => arr [num 0, .null]

/-- The counts of a breaker in a row. -/
def countsOut (c : Counts) : Json.Value :=
  arr ([c.requests, c.totalSuccesses, c.totalFailures, c.consecutiveSuccesses,
    c.consecutiveFailures].map num)

/-- The metrics of a breaker. -/
def metricsOut (b : Breaker) : Json.Value :=
  obj [("state", str b.state.name), ("generation", num b.generation),
    ("total_requests", num b.totalRequests),
    ("counts", obj [("requests", num b.counts.requests),
      ("total_successes", num b.counts.totalSuccesses),
      ("total_failures", num b.counts.totalFailures),
      ("consecutive_successes", num b.counts.consecutiveSuccesses),
      ("consecutive_failures", num b.counts.consecutiveFailures)])]

/-- The names of a registry. -/
def namesOf {α : Type} (r : Registry α) : Json.Value := arr (r.names.map str)

/-- The names of filters. -/
def namesOut (fs : List Filter) : Json.Value := arr ((Filter.names fs).map str)

/-- A table of routes. -/
def tableOut (t : RoutingTable) : Json.Value := arr (t.routes.map fun r => obj [("id", str r.id),
  ("uri", urlOut r.uri), ("predicates", arr (r.predicates.map fun p => str p.name)),
  ("filters", namesOut r.filters), ("timeout", durOut r.timeout),
  ("breaker", optStr (r.breaker.map (·.policy.name))), ("log_level", optStr (r.logLevel.map (·.name)))])

/-- The settings of a client. -/
def clientOut (c : Config.Client) : Json.Value := obj [("connect_timeout", natText c.connectTimeout),
  ("pool_idle_timeout", natText c.poolIdleTimeout),
  ("pool_max_idle_per_host", num c.poolMaxIdlePerHost.toNat),
  ("insecure_skip_verify", .bool c.insecureSkipVerify),
  ("tls", (c.tls.map fun t => arr ([t.ca, t.cert, t.key].map optStr)).getD .null)]

/-- The state of an exchange. -/
def exchangeOut (x : Exchange) : Json.Value :=
  obj [("url", urlOut x.request.url), ("headers", headersOut x.request.headers),
    ("captured", .bool x.request.body.captured.isSome),
    ("original", match x.attributes.lookup firstUrl with | some (.url u) => urlOut u | _ => .null),
    ("response", match x.response with
      | none => .null
      | some r => obj [("status", num r.status), ("headers", headersOut r.headers),
          ("captured", .bool r.body.captured.isSome)])]

/-- What was seen of a request; `shown` shows its body. -/
def sightingOut (shown : Except Error Bytes → Json.Value) (s : Sighting) : Json.Value :=
  obj [("method", bytesOut s.method), ("uri", bytesOut s.target.render),
    ("headers", headersOut s.headers), ("declared_len", optNat s.declared),
    ("body", (s.body.map shown).getD (str "ignored"))]

/-- A value, or what is shown of a failure. -/
def answerOr {ε α : Type} (bad : ε → Json.Value) (f : α → Json.Value) : Except ε α → Json.Value
  | .ok a => f a
  | .error e => bad e

/-- The entries of steps that change a state; a step may have none. -/
def steps {σ : Type} (start : σ) (items : List Json.Value)
    (f : σ → Json.Value → σ × Option Json.Value) : List Json.Value :=
  (items.foldl (fun (s, out) item =>
    let (s, entry) := f s item
    (s, entry.toList.reverse ++ out)) (start, [])).2.reverse

end Gatehouse.Scenario
