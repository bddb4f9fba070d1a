import Gatehouse.Error
import Gatehouse.Exchange.Outgoing

/-!
# Mounted handlers

A handler may be mounted at a method and a path, written `METHOD /path`. It takes the requests for
exactly these.
-/

namespace Gatehouse

/-- The method and the path that a handler is mounted at. -/
structure MountPoint where
  method : Bytes
  path : Bytes
  deriving DecidableEq, Repr, Inhabited

namespace MountPoint

/-- The mount point that a text names; the method is in any case. -/
def ofText (text : String) : Except ConfigError MountPoint :=
  let fault := ConfigError.mount text
  match Text.splitOnce ' ' (Text.trimBy Text.isBlank text.toList) with
  | none => .error (fault .shape)
  | some (method, path) =>
    let method := (Bytes.ofString (String.ofList method)).map Bytes.toUpper
    let path := Text.trimBy Text.isBlank path
    if !Http.isToken method then .error (fault .method)
    else if path.head? != some '/' then .error (fault .path)
    else .ok ⟨method, Bytes.ofString (String.ofList path)⟩

/-- The mount point of a request. -/
def ofHead (head : Http.RequestHead) : MountPoint := ⟨head.method, head.target.path⟩

/-- The text of a mount point. -/
def text (m : MountPoint) : String :=
  Bytes.toLatin m.method ++ " " ++ Utf8.decodeLossy m.path

end MountPoint

/-- Handlers by their mount points, the one mounted last first. -/
abbrev Mounts := List (MountPoint × Receiver)

end Gatehouse
