import Gatehouse.Text.Utf8
import Gatehouse.Url.Percent

/-!
# Form coding

The pairs of a query: joined by `&`, each split at its first `=`, with `+` for a space and percent
escapes for bytes.
-/

namespace Gatehouse.Http

/-- The text of a name or value in a query. -/
def formDecode (bs : Bytes) : String :=
  Utf8.decodeLossy (Url.decode (bs.map fun b => if b == 0x2B then 0x20 else b))

/-- The pairs of a query in order. -/
def queryPairs (query : Bytes) : List (String × String) :=
  ((Bytes.splitOn 0x26 query).filter fun piece => !piece.isEmpty).map fun piece =>
    match Bytes.splitOnce 0x3D piece with
    | some (name, value) => (formDecode name, formDecode value)
    | none => (formDecode piece, "")

end Gatehouse.Http
