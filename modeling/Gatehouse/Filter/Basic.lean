import Gatehouse.Exchange.Basic
import Gatehouse.RateLimit.Key
import Gatehouse.Regex.Replacement

/-!
# Filters

A filter has a hook before the request is sent and one after the response has come. A hook may change
the exchange, or fail and so end it; one of a custom filter may also break down.
-/

namespace Gatehouse

/-- What a header filter does to the values of a name. -/
inductive HeaderEdit
  | add (value : Bytes)
  | set (value : Bytes)
  | remove
  deriving DecidableEq, Repr, Inhabited

/-- The message whose headers a filter edits. -/
inductive HeaderSide
  | request
  | response
  deriving DecidableEq, Repr, Inhabited

/-- Headers with an edit of one name. -/
def HeaderEdit.apply (edit : HeaderEdit) (name : Http.HeaderName) (hs : Http.Headers) :
    Http.Headers :=
  match edit with
  | .add value => hs.append name value
  | .set value => hs.set name value
  | .remove => hs.remove name

/-- How a hook ends. -/
inductive HookEnd
  | passed
  | failed (e : Error)
  /-- It broke down. -/
  | panicked
  /-- The caller is gone. -/
  | givenUp
  deriving DecidableEq, Repr, Inhabited

/-- How a hook ends, with the world and the exchange that it leaves. -/
abbrev HookResult := HookEnd × World × Exchange

/-- A filter. -/
inductive Filter
  | header (side : HeaderSide) (name : Http.HeaderName) (edit : HeaderEdit)
  | pathEdit (pattern : Regex) (replacement : List Char)
  | logger (level : Level) (maxBody : Nat)
  /-- A limiter at a place of its own, which keeps its buckets apart from others. -/
  | rateLimit (place : Nat) (rate : Float) (burst : Nat) (key : KeyFunction)
  /-- Two hooks under a name. -/
  | custom (label : String) (pre post : World → Exchange → HookResult)

namespace Filter

/-- The name of a filter. -/
def name : Filter → String
  | .header .request _ (.add _) => "AddRequestHeader"
  | .header .request _ (.set _) => "SetRequestHeader"
  | .header .request _ .remove => "RemoveRequestHeader"
  | .header .response _ (.add _) => "AddResponseHeader"
  | .header .response _ (.set _) => "SetResponseHeader"
  | .header .response _ .remove => "RemoveResponseHeader"
  | .pathEdit .. => "RewritePath"
  | .logger .. => "RequestResponseLogger"
  | .rateLimit .. => "RateLimit"
  | .custom label .. => label

/-- A filter at a place. -/
def at_ (place : Nat) : Filter → Filter
  | .rateLimit _ rate burst key => .rateLimit place rate burst key
  | f => f

/-- The end of a hook that has nothing more to do. -/
def finish (w : World) (x : Exchange) : HookResult := (.passed, w, x)

/-- The end of a hook that fails. -/
def failWith (w : World) (x : Exchange) (e : Error) : HookResult := (.failed e, w, x)

/-- The filter that does nothing. -/
def inert (label : String) : Filter := .custom label finish finish

/-! ## Rewriting -/

/-- The path that a rewriting makes of a path, if its pattern matches. -/
def rewritten? (pattern : Regex) (replacement : List Char) (path : String) : Option String :=
  if pattern.isMatch path.toList then
    some (String.ofList (pattern.replaceAll path.toList replacement))
  else none

/-- The exchange with its URL kept as the first one, unless one is kept already. -/
def keepFirstUrl (x : Exchange) : Exchange :=
  match x.attributes.lookup firstUrl with
  | some (.url _) => x
  | _ => { x with attributes := x.attributes.put firstUrl (.url x.request.url) }

/-- The exchange with its path rewritten, if the pattern matches. -/
def replacePath (pattern : Regex) (replacement : List Char) (x : Exchange) : Exchange :=
  let x := keepFirstUrl x
  match rewritten? pattern replacement (Bytes.toLatin x.request.url.path) with
  | some path =>
    { x with request := { x.request with url := x.request.url.setPath (Bytes.ofString path) } }
  | none => x

/-! ## Logging -/

/-- The headers whose values are never shown. -/
def secretHeaders : List Http.HeaderName :=
  [.literal "authorization", .literal "cookie", .literal "set-cookie", .literal "x-api-key"]

/-- The value of a header as a log shows it. -/
def shownValue (f : Http.Field) : String :=
  if secretHeaders.contains f.name then "[REDACTED]"
  else match Http.text? f.value with
    | some v => Bytes.toLatin v
    | none => "[invalid UTF-8]"

/-- The lines that a log has for headers, sorted by name. -/
def shownHeaders (hs : Http.Headers) : List String :=
  hs.sorted.map fun f => Bytes.toLatin f.name.text ++ ": " ++ shownValue f

/-- The front of a captured body, with dots if there is more. -/
def preview (body : Body) (maxBody : Nat) : String :=
  let bytes := body.captured.getD []
  let shown := Utf8.decodeLossy (bytes.take maxBody)
  if maxBody < bytes.length then shown ++ "..." else shown

/-- Whether a logger of a level logs anything of an exchange. -/
def logs (w : World) (x : Exchange) (level : Level) : Bool :=
  x.logCap.allows level && w.threshold.allows level

/-- The event of a request. -/
def requestEvent (x : Exchange) (level : Level) (maxBody : Nat) : Event where
  level := level
  message := "Gateway request"
  fields := [("route", .text x.routeId), ("method", .text (Bytes.toLatin x.request.method)),
    ("url", .text x.request.url.toText), ("headers", .lines (shownHeaders x.request.headers)),
    ("body", .text (preview x.request.body maxBody))]

/-- The event of a response. -/
def responseEvent (x : Exchange) (r : Response) (level : Level) (maxBody : Nat) : Event where
  level := level
  message := "Gateway response"
  fields := [("route", .text x.routeId), ("status", .number r.status),
    ("headers", .lines (shownHeaders r.headers)), ("body", .text (preview r.body maxBody))]

/-- Captures the body of the request and logs it. -/
def logRequest (w : World) (x : Exchange) (level : Level) (maxBody : Nat) : HookResult :=
  if !logs w x level then finish w x
  else
    let (ended, body) := x.scope.run w.now w.gone x.request.body (x.request.body.capture w.now)
    let x := { x with request := { x.request with body } }
    match ended with
    | .givenUp => (.givenUp, w, x)
    | .done now (.error e) => failWith (w.moveTo now) x e
    | .done now (.ok ()) => finish ((w.moveTo now).emit (requestEvent x level maxBody)) x

/-- Captures the body of the response, if there is one, and logs it. -/
def logResponse (w : World) (x : Exchange) (level : Level) (maxBody : Nat) : HookResult :=
  if !logs w x level then finish w x
  else match x.response with
    | none => finish w x
    | some r =>
      let (ended, body) := x.scope.run w.now w.gone r.body (r.body.capture w.now)
      let r := { r with body }
      let x := { x with response := some r }
      match ended with
      | .givenUp => (.givenUp, w, x)
      | .done now (.error e) => failWith (w.moveTo now) x e
      | .done now (.ok ()) => finish ((w.moveTo now).emit (responseEvent x r level maxBody)) x

/-! ## Hooks -/

/-- The hook before the request is sent. -/
def pre (f : Filter) (w : World) (x : Exchange) : HookResult :=
  match f with
  | .header .request name edit =>
    finish w { x with request := { x.request with headers := edit.apply name x.request.headers } }
  | .header .response .. => finish w x
  | .pathEdit pattern replacement => finish w (replacePath pattern replacement x)
  | .logger level maxBody => logRequest w x level maxBody
  | .rateLimit place rate burst key =>
    let (decision, limiter) :=
      (w.limiter place rate burst).allow (key.key x.request) w.clock.now
    let w := w.keepLimiter place limiter
    if decision.allowed then finish w x
    else failWith w x (.rateLimitExceeded decision.remaining)
  | .custom _ pre _ => pre w x

/-- The hook after the response has come. -/
def post (f : Filter) (w : World) (x : Exchange) : HookResult :=
  match f with
  | .header .response name edit =>
    finish w { x with response := x.response.map fun r =>
      { r with headers := edit.apply name r.headers } }
  | .header .request .. => finish w x
  | .pathEdit .. => finish w x
  | .logger level maxBody => logResponse w x level maxBody
  | .rateLimit .. => finish w x
  | .custom _ _ post => post w x

end Filter

end Gatehouse
