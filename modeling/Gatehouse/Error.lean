import Gatehouse.Url.Error

/-!
# Errors

`BuildError` is why an instance cannot be built from its arguments, `ConfigError` why a
configuration is refused, and `Error` anything that ends an exchange. Each is a cause; the wording
is in `message`, and `Error.kind` classifies what the client of the gateway is told. A `Panic` is no
cause that anyone handles: it unwinds what it meets.
-/

namespace Gatehouse

/-- What unwinds to whoever catches it. -/
structure Panic where
  payload : String
  deriving DecidableEq, Repr, Inhabited

/-- The panic of adding a duration to a point in time where the sum is none. -/
def Panic.overflow : Panic := ⟨"overflow when adding duration to instant"⟩

/-- Why a predicate, filter, limiter or key function cannot be built. -/
inductive BuildError
  | missing (argument : String)
  | invalid (argument expected : String)
  | unknown (kind name : String)
  deriving DecidableEq, Repr, Inhabited

/-- The wording of a build error. -/
def BuildError.message : BuildError → String
  | .missing argument => s!"missing argument '{argument}'"
  | .invalid argument expected => s!"invalid argument '{argument}': expected {expected}"
  | .unknown kind name => s!"{kind} '{name}' not found"

/-- What is wrong with the pattern that a handler is mounted at. -/
inductive MountFault
  | shape
  | method
  | path
  deriving DecidableEq, Repr, Inhabited

/-- Why a PEM file is of no use. -/
inductive PemFault
  | unopenedCertificates (path reason : String)
  | malformedCertificates (detail : String)
  | noCertificates (path : String)
  | unopenedKey (path reason : String)
  | malformedKey (detail : String)
  | noKey (path : String)
  | invalidAuthority (path detail : String)
  | unpairedIdentity
  | invalidIdentity (detail : String)
  deriving DecidableEq, Repr, Inhabited

/-- The wording of a fault of a PEM file. -/
def PemFault.message : PemFault → String
  | .unopenedCertificates path reason => s!"failed to open certificate file {path}: {reason}"
  | .malformedCertificates detail => s!"failed to parse certificates: {detail}"
  | .noCertificates path => s!"no certificates found in {path}"
  | .unopenedKey path reason => s!"failed to open private key file {path}: {reason}"
  | .malformedKey detail => s!"failed to parse private key: {detail}"
  | .noKey path => s!"no private key found in {path}"
  | .invalidAuthority path detail => s!"invalid CA certificate in {path}: {detail}"
  | .unpairedIdentity => "client certificate and key must be given together"
  | .invalidIdentity detail => s!"invalid client certificate: {detail}"

/-- Why a configuration is refused. -/
inductive ConfigError
  | portZero
  | headerLimitZero
  | noRoutes
  /-- A spec without a name, at a position counted from one. -/
  | blankSpecName (owner kind : String) (position : Nat)
  | blankRouteId
  | duplicateRouteId (id : String)
  | invalidUri (route uri : String) (cause : Url.ParseError)
  | unsupportedUri (route uri : String)
  | invalidLogLevel (route level : String)
  | zeroFailureThreshold (route : String)
  | unpairedTlsFiles
  | alreadyRegistered (kind name : String)
  | missingRouteId
  | routeUriNotHttp (route : String)
  | specFailed (route kind name : String) (cause : BuildError)
  | globalFilterFailed (name : String) (cause : BuildError)
  | mount (pattern : String) (fault : MountFault)
  | unreadableFile (path reason : String)
  | unknownFormat
  | unsupportedFormat (extension : String)
  | unsetVariable (name : String)
  | malformed (format detail : String)
  | bindFailed (address reason : String)
  | pem (fault : PemFault)
  | other (text : String)
  deriving DecidableEq, Repr, Inhabited

/-- The wording of a configuration error. -/
def ConfigError.message : ConfigError → String
  | .portZero => "server port must be > 0"
  | .headerLimitZero => "max-header-bytes must be > 0"
  | .noRoutes => "at least one route is required"
  | .blankSpecName owner kind position => s!"{owner}: {kind} #{position} has an empty name"
  | .blankRouteId => "route id cannot be empty"
  | .duplicateRouteId id => s!"duplicate route id '{id}'"
  | .invalidUri route uri cause => s!"route '{route}': invalid uri '{uri}': {cause.message}"
  | .unsupportedUri route uri =>
    s!"route '{route}': uri '{uri}' must be an absolute http or https URL"
  | .invalidLogLevel route level => s!"route '{route}': invalid log-level '{level}'"
  | .zeroFailureThreshold route =>
    s!"route '{route}': circuit-breaker consecutive-failures must be > 0"
  | .unpairedTlsFiles => "httpclient tls cert-file and key-file must be set together"
  | .alreadyRegistered kind name => s!"{kind} '{name}' already registered"
  | .missingRouteId => "route id is required"
  | .routeUriNotHttp route => s!"route '{route}': uri must be an absolute http or https URL"
  | .specFailed route kind name cause => s!"route '{route}': {kind} '{name}': {cause.message}"
  | .globalFilterFailed name cause => s!"global filter '{name}': {cause.message}"
  | .mount pattern .shape => s!"handler pattern '{pattern}' must be 'METHOD /path'"
  | .mount pattern .method => s!"invalid method in handler pattern '{pattern}'"
  | .mount pattern .path => s!"handler pattern '{pattern}' must have an absolute path"
  | .unreadableFile path reason => s!"failed to read config file {path}: {reason}"
  | .unknownFormat => "unable to detect config format"
  | .unsupportedFormat extension => s!"unsupported config format: {extension}"
  | .unsetVariable name => s!"environment variable '{name}' not set and no default provided"
  | .malformed format detail => s!"failed to parse {format}: {detail}"
  | .bindFailed address reason => s!"failed to bind to {address}: {reason}"
  | .pem fault => fault.message
  | .other text => text

/-- The standard reason phrase of a status code. -/
def reasonPhrase? : Nat → Option String
  | 100 => some "Continue" | 101 => some "Switching Protocols" | 102 => some "Processing"
  | 103 => some "Early Hints"
  | 200 => some "OK" | 201 => some "Created" | 202 => some "Accepted"
  | 203 => some "Non Authoritative Information" | 204 => some "No Content"
  | 205 => some "Reset Content" | 206 => some "Partial Content" | 207 => some "Multi-Status"
  | 208 => some "Already Reported" | 226 => some "IM Used"
  | 300 => some "Multiple Choices" | 301 => some "Moved Permanently" | 302 => some "Found"
  | 303 => some "See Other" | 304 => some "Not Modified" | 305 => some "Use Proxy"
  | 307 => some "Temporary Redirect" | 308 => some "Permanent Redirect"
  | 400 => some "Bad Request" | 401 => some "Unauthorized" | 402 => some "Payment Required"
  | 403 => some "Forbidden" | 404 => some "Not Found" | 405 => some "Method Not Allowed"
  | 406 => some "Not Acceptable" | 407 => some "Proxy Authentication Required"
  | 408 => some "Request Timeout" | 409 => some "Conflict" | 410 => some "Gone"
  | 411 => some "Length Required" | 412 => some "Precondition Failed"
  | 413 => some "Payload Too Large" | 414 => some "URI Too Long"
  | 415 => some "Unsupported Media Type" | 416 => some "Range Not Satisfiable"
  | 417 => some "Expectation Failed" | 418 => some "I'm a teapot"
  | 421 => some "Misdirected Request" | 422 => some "Unprocessable Entity"
  | 423 => some "Locked" | 424 => some "Failed Dependency" | 425 => some "Too Early"
  | 426 => some "Upgrade Required" | 428 => some "Precondition Required"
  | 429 => some "Too Many Requests" | 431 => some "Request Header Fields Too Large"
  | 451 => some "Unavailable For Legal Reasons"
  | 500 => some "Internal Server Error" | 501 => some "Not Implemented"
  | 502 => some "Bad Gateway" | 503 => some "Service Unavailable"
  | 504 => some "Gateway Timeout" | 505 => some "HTTP Version Not Supported"
  | 506 => some "Variant Also Negotiates" | 507 => some "Insufficient Storage"
  | 508 => some "Loop Detected" | 510 => some "Not Extended"
  | 511 => some "Network Authentication Required"
  | _ => none

/-- A status code with its reason phrase. -/
def statusText (code : Nat) : String :=
  let phrase := (reasonPhrase? code).getD "<unknown status code>"
  s!"{code} {phrase}"

/-- Anything that ends an exchange. -/
inductive Error
  | routeNotFound (request : String)
  | preFilter (filter : String) (source : Error)
  | postFilter (filter : String) (source : Error)
  | route (id : String) (source : Error)
  | rateLimitExceeded (remaining : Nat)
  | deadlineExceeded
  | canceled
  | circuitOpen (breaker : String)
  | halfOpenExhausted (breaker : String)
  | backend (reason : String)
  | backendStatus (code : Nat)
  | build (cause : BuildError)
  | invalidRequest (reason : String)
  | config (cause : ConfigError)
  | body (reason : String)
  | http (reason : String)
  | serialization (reason : String)
  | io (reason : String)
  | internal (reason : String)
  deriving DecidableEq, Repr, Inhabited

namespace Error

/-- The wording of an error. -/
def message : Error → String
  | .routeNotFound request => s!"route not found: {request}"
  | .preFilter filter source => s!"pre-process of filter '{filter}' failed: {source.message}"
  | .postFilter filter source => s!"post-process of filter '{filter}' failed: {source.message}"
  | .route id source => s!"route '{id}': {source.message}"
  | .rateLimitExceeded remaining => s!"rate limit exceeded (remaining tokens: {remaining})"
  | .deadlineExceeded => "request deadline exceeded"
  | .canceled => "request canceled"
  | .circuitOpen breaker => s!"circuit breaker '{breaker}' is open"
  | .halfOpenExhausted breaker =>
    s!"circuit breaker '{breaker}' is half-open and has too many requests"
  | .backend reason => s!"backend request failed: {reason}"
  | .backendStatus code => s!"backend responded with {statusText code}"
  | .build cause => cause.message
  | .invalidRequest reason => s!"invalid request: {reason}"
  | .config cause => s!"configuration error: {cause.message}"
  | .body reason => s!"body error: {reason}"
  | .http reason => s!"HTTP error: {reason}"
  | .serialization reason => s!"serialization error: {reason}"
  | .io reason => s!"I/O error: {reason}"
  | .internal reason => s!"internal error: {reason}"

/-- The innermost error under the notes on filter and route. -/
def root : Error → Error
  | .preFilter _ source => source.root
  | .postFilter _ source => source.root
  | .route _ source => source.root
  | e => e

/-- What an error is to the client of the gateway. -/
inductive Kind
  | routeNotFound
  | rateLimitExceeded
  | deadlineExceeded
  | circuitBreaker
  | http
  | unexpected
  deriving DecidableEq, Repr, Inhabited

/-- The name of a kind. -/
def Kind.name : Kind → String
  | .routeNotFound => "route-not-found"
  | .rateLimitExceeded => "rate-limit-exceeded"
  | .deadlineExceeded => "deadline-exceeded"
  | .circuitBreaker => "circuit-breaker"
  | .http => "http"
  | .unexpected => "unexpected"

/-- The kind of the innermost error. -/
def kind (e : Error) : Kind :=
  match e.root with
  | .routeNotFound _ => .routeNotFound
  | .rateLimitExceeded _ => .rateLimitExceeded
  | .deadlineExceeded | .canceled => .deadlineExceeded
  | .circuitOpen _ | .halfOpenExhausted _ => .circuitBreaker
  | .backend _ | .backendStatus _ => .http
  | _ => .unexpected

/-- The status of the response to a request that failed in a way of this kind. -/
def Kind.status : Kind → Nat
  | .routeNotFound => 404
  | .rateLimitExceeded => 429
  | .deadlineExceeded => 502
  | .http => 502
  | .circuitBreaker => 503
  | .unexpected => 500

end Error

end Gatehouse
