import Gatehouse.Body.Basic
import Gatehouse.Http.Target
import Gatehouse.Net.Address
import Gatehouse.Url.Basic

/-!
# Messages

The request and the response of an exchange, as the gateway holds them. `Request.ofHead` makes an
absolute URL of the target of a request and its host.
-/

namespace Gatehouse

/-- A request. -/
structure Request where
  url : Url
  method : Bytes := Bytes.ofString "GET"
  headers : Http.Headers := []
  body : Body := .empty
  contentLength : Option Nat := some 0
  remote : Option Net.Endpoint := none
  deriving Repr, Inhabited

/-- A response. -/
structure Response where
  status : Nat := 200
  headers : Http.Headers := []
  body : Body := .empty
  deriving Repr, Inhabited

/-- A decimal number of 64 bits, with an optional plus sign. -/
def word? (text : Bytes) : Option Nat :=
  let digits := match text with
    | 0x2B :: rest => rest
    | bs => bs
  (Bytes.toNat? digits).filter (· < Nat.pow 2 64)

namespace Request

/-- The text of the absolute URL of a request: without a scheme it is `http`, and without an
authority the host that the headers name, or `localhost`. -/
def urlText (head : Http.RequestHead) : Bytes :=
  let scheme := head.target.scheme.getD Url.http
  let authority := (head.target.authority <|> head.headers.firstText? Http.host).getD
    (Bytes.ofString "localhost")
  scheme ++ Bytes.ofString "://" ++ authority ++ head.target.pathAndQuery

/-- The request of a head and a stream. The length is what the headers say, or else the size of the
stream. -/
def ofHead (head : Http.RequestHead) (source : Source) (remote : Option Net.Endpoint) :
    Except Error Request :=
  match Url.parse (urlText head) with
  | .error e => .error (.invalidRequest s!"invalid request URL: {e.message}")
  | .ok url =>
    let declared := (head.headers.firstText? Http.contentLength).bind fun v => word? (Http.trim v)
    let contentLength := declared <|> source.size
    .ok { url, method := head.method, headers := head.headers,
          body := .ofSource source contentLength, contentLength, remote }

end Request

end Gatehouse
