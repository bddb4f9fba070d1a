import Gatehouse.Json.Writer
import Gatehouse.Log.Record

/-!
# Log lines

A record is written as one line: as text with its message before its fields, or as a JSON object.
-/

namespace Gatehouse

namespace FieldValue

/-- A value in a line of text. -/
def inLine : FieldValue → String
  | .text s => s
  | .number n => toString n
  | .lines ls => ", ".intercalate ls

/-- A value in a JSON object. -/
def toValue : FieldValue → Json.Value
  | .text s => .string s
  | .number n => .ofNat n
  | .lines ls => .array (ls.map .string)

end FieldValue

namespace Record

/-- The level of a record as it stands in a line. -/
def levelName (r : Record) : String := r.level.name.map Char.toUpper

/-- A record as text, without where it comes from. -/
def text (r : Record) : String :=
  " ".intercalate (r.levelName :: r.message :: r.fields.map fun (k, v) => k ++ "=" ++ v.inLine)

/-- A record as a JSON object. -/
def toValue (r : Record) : Json.Value :=
  let fields := (("message", FieldValue.text r.message) :: r.fields).foldl
    (fun (fs : Json.Fields) (k, v) => fs.insert k v.toValue) []
  .object [("fields", .object fields), ("level", .string r.levelName), ("target", .string r.origin)]

/-- A record as a line of JSON. -/
def json (r : Record) : String := r.toValue.write

end Record

end Gatehouse
