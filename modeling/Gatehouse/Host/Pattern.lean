import Gatehouse.Http.Header
import Gatehouse.Regex.Parser
import Gatehouse.Text.Utf8

/-!
# Host patterns

A host pattern is a host name with `*` for characters within a label and `**` for any characters;
everything else is taken as a regular expression.
-/

namespace Gatehouse.Host

/-- The regular expression that a pattern stands for. -/
def expression : List Char → List Char
  | [] => []
  | '*' :: '*' :: rest => '.' :: '+' :: expression rest
  | '*' :: rest => "[^.]+".toList ++ expression rest
  | '.' :: rest => '\\' :: '.' :: expression rest
  | c :: rest => c :: expression rest

/-- A host without its port and without the brackets of an IPv6 address. -/
def stripPort (host : Bytes) : Bytes :=
  match host with
  | 0x5B :: rest =>
    match Bytes.splitOnce 0x5D rest with
    | some (address, _) => address
    | none => host
  | _ =>
    match Bytes.splitOnce 0x3A host.reverse with
    | some (port, name) =>
      if !port.isEmpty && port.all Bytes.isDigit then name.reverse else host
    | none => host

/-- A host pattern. -/
structure Pattern where
  text : String
  regex : Regex
  deriving Repr

/-- The pattern of a text, which ignores case and is anchored at both ends. -/
def Pattern.ofText (room : Regex.Capacity) (text : String) : Except Regex.Fault Pattern := do
  let converted := String.ofList (expression text.toList)
  return ⟨text, ← Regex.ofText room s!"(?i)^{converted}$"⟩

/-- Whether a host matches. -/
def Pattern.accepts (p : Pattern) (host : Bytes) : Bool :=
  p.regex.isMatch (Utf8.decodeLossy (stripPort host)).toList

end Gatehouse.Host
