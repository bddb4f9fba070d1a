import Gatehouse.Http.Header

/-!
# Cookies

`cookies` reads the pairs of name and value from all `cookie` headers in order.
-/

namespace Gatehouse.Http

/-- A value without the pair of double quotes around it. -/
def unquote (value : Bytes) : Bytes :=
  match value with
  | 0x22 :: rest => if rest.getLast? = some 0x22 then rest.dropLast else value
  | _ => value

/-- The name and the value of an element of a cookie header, if it holds `=`. -/
def cookiePair? (element : Bytes) : Option (Bytes × Bytes) :=
  (Bytes.splitOnce 0x3D (trim element)).map fun (name, value) => (trim name, unquote (trim value))

/-- The cookies of a request, in order. -/
def cookies (hs : Headers) : List (Bytes × Bytes) :=
  ((hs.values cookie).filterMap text?).flatMap fun value =>
    (Bytes.splitOn 0x3B value).filterMap cookiePair?

end Gatehouse.Http
