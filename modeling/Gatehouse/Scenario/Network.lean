import Gatehouse.Exchange.Client
import Gatehouse.Tls.Client

/-!
# The surroundings of a scenario

A scenario has no network, and only the files that it brings along.
-/

namespace Gatehouse.Scenario

/-- Why no connection can be opened. -/
def unreachable : String := "Network is unreachable (os error 101)"

/-- Opens no connection. -/
def dial : Client.Dial := fun _ => .error unreachable

/-- Why a file is out of reach that a scenario does not bring along. -/
def missing : String := "No such file or directory (os error 2)"

/-- Why nobody can listen where someone listens already. -/
def occupied : String := "Address already in use (os error 98)"

/-- The files of a scenario. -/
def filesOf (files : List (String × Bytes)) : Files := fun path =>
  match files.lookup path with
  | some content => .ok content
  | none => .error missing

end Gatehouse.Scenario
