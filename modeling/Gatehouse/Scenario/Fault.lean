import Gatehouse.Scenario.Report

/-!
# Failures in a scenario

An error is shown by the name of its cause and its text. A panic is shown in place of what it has
unwound.
-/

namespace Gatehouse.Scenario

/-- Cuts a text behind the first occurrence of a mark, up to `upTo` and put in its place. -/
def cutBehind (marker : String) (s : String) : String :=
  match s.splitOn marker with
  | head :: _ :: _ => head ++ marker ++ "<detail>"
  | _ => s

/-- Leaves out the details of texts that are not the gateway's own: of regular expressions, of
documents, and of certificates and keys. -/
def cutDetail (s : String) : String :=
  let s := match s.splitOn "(regex parse error", s.splitOn "(Compiled regex exceeds" with
    | head :: _ :: _, _ => head ++ "(<detail>)"
    | _, head :: _ :: _ => head ++ "(<detail>)"
    | _, _ => s
  let s := ["failed to parse YAML: ", "failed to parse TOML: ", "failed to parse JSON: ",
    "failed to parse certificates: ", "failed to parse private key: ",
    "invalid client certificate: "].foldl (fun s m => cutBehind m s) s
  match s.splitOn "invalid CA certificate in " with
  | head :: tail :: _ => match tail.splitOn ": " with
    | path :: _ :: _ => s!"{head}invalid CA certificate in {path}: <detail>"
    | _ => s
  | _ => s

/-- The name of a cause. -/
def variant : Error → String
  | .routeNotFound _ => "RouteNotFound" | .preFilter .. => "PreFilter"
  | .postFilter .. => "PostFilter" | .route .. => "Route"
  | .rateLimitExceeded _ => "RateLimitExceeded" | .deadlineExceeded => "DeadlineExceeded"
  | .canceled => "Canceled" | .circuitOpen _ => "CircuitOpen"
  | .halfOpenExhausted _ => "HalfOpenRequestExceeded" | .backend _ => "Upstream"
  | .backendStatus _ => "UpstreamStatus" | .build (.missing _) => "MissingArgument"
  | .build (.invalid ..) => "InvalidArgument" | .build (.unknown ..) => "UnknownBuilder"
  | .invalidRequest _ => "InvalidRequest" | .config _ => "Config" | .body _ => "Body"
  | .http _ => "Http" | .serialization _ => "Serialization" | .io _ => "Io"
  | .internal _ => "Internal"

/-- An error. -/
def errOut (e : Error) : Json.Value :=
  obj [("error", str (variant e)), ("message", str (cutDetail e.message))]

/-- What is shown where something has panicked. -/
def panicked : Json.Value := str "panicked"

/-- What is shown where a panic has ended all of a scenario. -/
def panicOut : Json.Value := obj [("error", str "Panic")]

/-- What is shown of an assembly, unless it has panicked. -/
def assembled {α : Type} (result : Except Assembly.Fault α)
    (shown : Except ConfigError α → Json.Value) : Json.Value :=
  match result with
  | .ok a => shown (.ok a)
  | .error (.refused e) => shown (.error e)
  | .error (.panicked _) => panicOut

/-- What the caller of a call under a breaker gets. -/
def fateOut : Except Panic (Breaker.CallFate Nat) → Json.Value
  | .ok (.value n _) => obj [("ok", num n)]
  | .ok (.error e) => errOut e
  | .ok .panicked | .ok .dropped | .error _ => panicked

/-- How a hook has ended. -/
def hookOut : HookEnd → Json.Value
  | .passed => str "ok"
  | .failed e => errOut e
  | .panicked => panicked
  | .givenUp => str "pending"

/-- What reading a body comes to. -/
def readOut : Waited (Except Error Bytes) → Json.Value
  | .givenUp => str "pending"
  | .done _ (.ok bytes) => bytesOut bytes
  | .done _ (.error e) => errOut e

end Gatehouse.Scenario
