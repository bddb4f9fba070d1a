import Gatehouse.Exchange.Basic

/-!
# Responses to failed requests

An exchange that fails is answered with a short text and a status that depend on the kind of the
error only, and the error itself is logged.
-/

namespace Gatehouse.Error

/-- What the client is told. -/
def Kind.publicText : Kind → String
  | .routeNotFound => "route not found"
  | .deadlineExceeded => "request timeout"
  | .http => "backend request failed"
  | .rateLimitExceeded => "rate limit exceeded"
  | .circuitBreaker => "circuit breaker rejected request"
  | .unexpected => "unexpected error"

/-- The event of an error. A request without a route is no error of the gateway. -/
def event (e : Error) : Event :=
  if e.kind = .routeNotFound then
    { level := .info, message := e.kind.publicText, fields := [("error", .text e.message)] }
  else
    { level := .error, message := e.kind.publicText,
      fields := [("error", .text e.message), ("kind", .text e.kind.name)] }

/-- The response to a request that failed. -/
def response (e : Error) : Response where
  status := e.kind.status
  headers := [⟨Http.contentType, Bytes.ofString "text/plain; charset=utf-8"⟩]
  body := .ofBytes (Bytes.ofString e.kind.publicText)

end Gatehouse.Error
