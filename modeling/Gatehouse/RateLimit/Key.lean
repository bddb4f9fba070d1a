import Gatehouse.Exchange.Message
import Gatehouse.Http.Form

/-!
# Keys of requests

A key function names the bucket that a request takes from. The key of an address is the same however
the address is spelled.
-/

namespace Gatehouse

/-- What requests are told apart by. -/
inductive KeyFunction
  | ip
  | path
  | pathMethod
  | header (name : Http.HeaderName)
  | query (parameter : String)
  deriving DecidableEq, Repr, Inhabited

namespace KeyFunction

/-- The name of a key function. -/
def name : KeyFunction → String
  | .ip => "ip"
  | .path => "path"
  | .pathMethod => "path-method"
  | .header _ => "header"
  | .query _ => "query"

/-- The address that a text spells, without blanks around it. -/
def address? (text : Bytes) : Option Net.IpAddress :=
  Net.IpAddress.parse? (Bytes.toLatin (Http.trim text)).toList

/-- The address of the client: the first that it was forwarded for, its real one as told by a proxy,
or the peer's. -/
def clientAddress? (r : Request) : Option Net.IpAddress :=
  let forwarded := (r.headers.firstText? (.literal "x-forwarded-for")).bind fun value =>
    address? (value.takeWhile (· != 0x2C))
  let real := (r.headers.firstText? (.literal "x-real-ip")).bind address?
  forwarded <|> real <|> r.remote.map (·.address)

/-- The key of a request. -/
def key (r : Request) : KeyFunction → String
  | .ip => ((clientAddress? r).map fun a => a.canonical.render).getD ""
  | .path => Bytes.toLatin r.url.path
  | .pathMethod => Bytes.toLatin (r.url.path ++ [0x3A] ++ r.method)
  | .header name => ((r.headers.first? name).map Utf8.decodeLossy).getD ""
  | .query parameter =>
    (((Http.queryPairs (r.url.query.getD [])).lookup parameter)).getD ""

end KeyFunction

end Gatehouse
