import Gatehouse.Config.Decode
import Gatehouse.Config.Environment
import Gatehouse.Config.Validate
import Gatehouse.Json.Document
import Gatehouse.Text.Utf8
import Gatehouse.Toml.Document
import Gatehouse.Yaml.Document

/-!
# Loading a configuration

A configuration is loaded from a text in one of three formats: references to the environment are
replaced, the text is read as a tree, and the tree as settings. The format of a file is told by the
end of its name.
-/

namespace Gatehouse.Config

/-- The format of a configuration text. -/
inductive Format
  | yaml
  | toml
  | json
  deriving DecidableEq, Repr, Inhabited

namespace Format

/-- The name of a format. -/
def name : Format → String
  | .yaml => "YAML"
  | .toml => "TOML"
  | .json => "JSON"

/-- What follows the last dot of the last part of a path, unless that dot is its first character. -/
def extension? (path : List Char) : Option (List Char) :=
  let parts := (Text.splitOn '/' path).filter fun part => !part.isEmpty && part != ['.']
  match parts.getLast? with
  | none => none
  | some file =>
    let ext := (file.reverse.takeWhile (· != '.')).reverse
    if file == ['.', '.'] || file.length ≤ ext.length + 1 then none else some ext

/-- The format of a file by its name, in any case. -/
def ofPath (path : String) : Except ConfigError Format :=
  match extension? path.toList with
  | none => .error .unknownFormat
  | some ext =>
    match String.ofList (ext.map Char.toLower) with
    | "yaml" => .ok .yaml
    | "yml" => .ok .yaml
    | "toml" => .ok .toml
    | "json" => .ok .json
    | _ => .error (.unsupportedFormat (String.ofList ext))

/-- The tree of a text. -/
def tree? : Format → List Char → Option Node
  | .yaml, text => Yaml.parse? text
  | .toml, text => Toml.parse? text
  | .json, text => (Json.Document.ofText? text).map (Node.ofDocument Json.maxDepth)

end Format

/-- The settings of a text without references. -/
def parse (format : Format) (text : String) : Except ConfigError Config :=
  match format.tree? text.toList with
  | none => .error (.malformed format.name "not well-formed")
  | some tree => match ofNode tree with
    | .ok config => .ok config
    | .error fault => .error (.malformed format.name fault.message)

/-- Loads a configuration from a text. -/
def load (env : Environment) (format : Format) (text : String) : Except ConfigError Config := do
  parse format (← expand env text)

/-- Loads a configuration from a file, whose content may be out of reach for a reason. -/
def loadFile (env : Environment) (path : String) (content : Except String Bytes) :
    Except ConfigError Config := do
  let bytes ← match content with
    | .ok bytes => pure bytes
    | .error reason => throw (.unreadableFile path reason)
  match Utf8.decode? bytes with
  | none => throw (.unreadableFile path "stream did not contain valid UTF-8")
  | some text => load env (← Format.ofPath path) text

/-- Loads a configuration from a file and validates it. -/
def loadValid (env : Environment) (path : String) (content : Except String Bytes) :
    Except ConfigError Config := do
  let config ← loadFile env path content
  config.validate
  return config

end Gatehouse.Config
