import Gatehouse.Predicate.Basic
import Gatehouse.Registry

/-!
# Building predicates

The predicates that routes can name, with the arguments that each takes. Regular expressions are
built within some capacity.
-/

namespace Gatehouse

/-- The regular expression of an argument, which has to be one. -/
def compileRegex (room : Regex.Capacity) (text : String) : Except BuildError Regex :=
  match Regex.ofText room text with
  | .ok re => .ok re
  | .error fault => .error (.invalid "regexp" s!"a valid regular expression ({fault.message})")

/-- The header that an argument names. -/
def headerArgument (text : String) : Except BuildError Http.HeaderName :=
  match Http.HeaderName.ofString? text with
  | some name => .ok name
  | none => .error (.invalid "name" "a valid header name")

namespace Predicate

variable (room : Regex.Capacity)

/-- The regular expression that a value has to match, if the argument is present. -/
def valueRegex (args : Args) : Except BuildError (Option Regex) := do
  match ← args.getString? "regexp" with
  | some text => return some (← compileRegex room text)
  | none => return none

/-- A method that a text names in any case. -/
def methodOf (text : String) : Except BuildError Bytes :=
  let method := (Bytes.ofString text).map Bytes.toUpper
  if Http.isToken method then .ok method else .error (.invalid "methods" "HTTP method names")

/-- A host pattern of an argument, which has to make a regular expression. -/
def hostPattern (text : String) : Except BuildError Host.Pattern :=
  match Host.Pattern.ofText room text with
  | .ok p => .ok p
  | .error fault => .error (.invalid "patterns" s!"a valid host pattern ({fault.message})")

/-- The predicates that there are from the start. -/
def registry : Registry Predicate where
  kind := "predicate"
  builders := [
    ("Method", fun args => do
      return .method (← (← args.getStrings "methods").mapM methodOf)),
    ("Path", fun args => do
      return .path ((← args.getStrings "patterns").map fun t => .ofText (Bytes.ofString t))),
    ("Host", fun args => do
      return .host (← (← args.getStrings "patterns").mapM (hostPattern room))),
    ("Header", fun args => do
      let text ← args.getString "name"
      let regex ← args.getString? "regexp"
      let name ← headerArgument text
      return .header name (← regex.mapM (compileRegex room))),
    ("Query", fun args => do
      return .query (← args.getString "name") (← valueRegex room args)),
    ("Cookie", fun args => do
      return .cookie (Bytes.ofString (← args.getString "name")) (← valueRegex room args)),
    ("Before", fun args => do return .before (← args.getTimestamp "datetime")),
    ("After", fun args => do return .after (← args.getTimestamp "datetime")),
    ("Between", fun args => do
      let start ← args.getTimestamp "start"
      let stop ← args.getTimestamp "end"
      if start.before stop then return .between start stop
      else throw (.invalid "end" "an instant after 'start'"))]

end Predicate

end Gatehouse
