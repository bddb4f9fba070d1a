import Gatehouse.Launch.Basic
import Gatehouse.Log.Line
import Gatehouse.Regex.Estimate
import Std.Time

/-!
# The program

The outer layer of `Launch.run`: it fetches the variables of the environment and the files that the
run can ask for, and prints what comes of it. It has no sockets to listen at, so that it checks
configurations and reports, when it is to serve one, that it cannot.
-/

namespace Gatehouse.Main

/-- The content of a file, or why it is out of reach. -/
def fetchFile (path : String) : IO (Except String Bytes) := do
  try
    return .ok (← IO.FS.readBinFile path).toList
  catch
    | .noFileOrDirectory .. => return .error "No such file or directory (os error 2)"
    | .permissionDenied .. => return .error "Permission denied (os error 13)"
    | e => return .error e.toString

/-- Fetches what belongs to each of some names. -/
def fetchAll {α : Type} (fetch : String → IO α) (names : List String) : IO (List (String × α)) :=
  names.mapM fun name => do return (name, ← fetch name)

/-- The files that a configuration names. -/
def filesOf (c : Config) : List String :=
  match c.gateway.client.tls with
  | none => []
  | some t => [t.ca, t.cert, t.key].filterMap id

/-- Fetches what a run with some arguments can ask for. -/
def fetchHost (args : List String) : IO Launch.Host := do
  let path := match CommandLine.parse args with
    | .run c => c.config.toList
    | _ => []
  let files ← fetchAll fetchFile path
  let text := (files.head?.bind fun (_, file) => file.toOption.bind Utf8.decode?).getD ""
  let names := ["RUST_LOG", "SLUICE_LOG_LEVEL"] ++ Config.referredNames text.toList
  let values ← fetchAll (fun name => IO.getEnv name) names
  let env : Config.Environment := fun name => (values.lookup name).join
  let named := path.flatMap fun p =>
    ((Config.loadFile env p ((files.lookup p).getD (.error ""))).toOption.map filesOf).getD []
  let others ← fetchAll fetchFile named
  return {
    env
    room := .estimated
    now := ← IO.monoNanosNow
    files := fun p => ((files ++ others).lookup p).getD (.error "No such file or directory (os error 2)")
    listen := fun _ => .error "Function not implemented (os error 38)" }

/-- Prints a record with the time. -/
def printRecord (format : Config.LogFormat) (r : Record) : IO Unit := do
  let now := Std.Time.DateTime.ofTimestamp (← Std.Time.Timestamp.now) Std.Time.TimeZone.ZoneRules.UTC
  let stamp := now.format "uuuu-MM-dd'T'HH:mm:ss.SSSSSS'Z'"
  match format with
  | .text =>
    let gap := if r.levelName.length < 5 then "  " else " "
    IO.println (stamp ++ gap ++ r.text)
  | .json =>
    let fields := (r.toValue.object?.getD []).insert "timestamp" (.string stamp)
    IO.println (Json.Value.object fields).write

end Gatehouse.Main

open Gatehouse in
/-- Runs the program. -/
def main (args : List String) : IO UInt32 := do
  let r := Launch.run (← Main.fetchHost args) args
  r.output.forM (IO.println ·)
  r.records.forM (Main.printRecord r.format)
  r.report.forM (IO.eprintln ·)
  return r.code.toUInt32
