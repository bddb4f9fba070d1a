import Gatehouse.Error
import Gatehouse.Host.Pattern
import Gatehouse.Http.Cookie
import Gatehouse.Http.Form
import Gatehouse.Http.Target
import Gatehouse.Path.Pattern
import Gatehouse.Time.Clock

/-!
# Predicates

A predicate is a test of the head of a request, or of the time. A route is for the requests that
pass all its predicates.
-/

namespace Gatehouse

/-- A test of requests. -/
inductive Predicate
  | method (methods : List Bytes)
  | path (patterns : List Path.Pattern)
  | host (patterns : List Host.Pattern)
  | header (header : Http.HeaderName) (value : Option Regex)
  | query (parameter : String) (value : Option Regex)
  | cookie (cookie : Bytes) (value : Option Regex)
  | before (instant : Timestamp)
  | after (instant : Timestamp)
  | between (start stop : Timestamp)
  /-- A test under a name of its own, which may panic. -/
  | custom (label : String) (test : Clock → Http.RequestHead → Except Panic Bool)

namespace Predicate

/-- The name of a predicate. -/
def name : Predicate → String
  | .method _ => "Method"
  | .path _ => "Path"
  | .host _ => "Host"
  | .header .. => "Header"
  | .query .. => "Query"
  | .cookie .. => "Cookie"
  | .before _ => "Before"
  | .after _ => "After"
  | .between .. => "Between"
  | .custom label _ => label

/-- Whether a value matches; without a regular expression any does. -/
def valueMatches (regex : Option Regex) (value : String) : Bool :=
  regex.all fun re => re.isMatch value.toList

/-- Whether a request passes. -/
def test (clock : Clock) (r : Http.RequestHead) : Predicate → Except Panic Bool
  | .method methods => return methods.contains r.method
  | .path patterns => return patterns.any fun p => p.accepts r.target.path
  | .host patterns => return r.host?.any fun h => patterns.any fun p => p.accepts h
  | .header name value =>
    return (r.headers.values name).any fun v => valueMatches value (Utf8.decodeLossy v)
  | .query parameter value =>
    return r.target.query.any fun q =>
      (Http.queryPairs q).any fun (k, v) => k == parameter && valueMatches value v
  | .cookie name value =>
    return (Http.cookies r.headers).any fun (k, v) =>
      k == name && valueMatches value (Bytes.toLatin v)
  | .before instant => return clock.utc.before instant
  | .after instant => return instant.before clock.utc
  | .between start stop => return start.before clock.utc && clock.utc.before stop
  | .custom _ test => test clock r

end Predicate

end Gatehouse
