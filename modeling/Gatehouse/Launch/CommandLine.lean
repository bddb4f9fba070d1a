/-!
# Command lines

A command line names a configuration file, may override the log level and the port, and may ask to
check the configuration only. `CommandLine.parse` refuses what is unknown, out of range, given twice
or without its value.
-/

namespace Gatehouse

/-- What a command line asks for. -/
structure CommandLine where
  /-- The path of the configuration. -/
  config : Option String := none
  logLevel : Option String := none
  port : Option UInt16 := none
  check : Bool := false
  deriving DecidableEq, Repr, Inhabited

namespace CommandLine

/-- How a command line is understood. -/
inductive Meaning
  | run (c : CommandLine)
  | version
  | help
  | misuse
  deriving DecidableEq, Repr, Inhabited

/-- An option with a value. -/
inductive Setting
  | logLevel
  | port
  deriving DecidableEq, Repr, Inhabited

/-- The port that a text gives, with an optional sign. -/
def port? (text : List Char) : Option UInt16 :=
  let (negative, digits) := match text with
    | '-' :: rest => (true, rest)
    | '+' :: rest => (false, rest)
    | _ => (false, text)
  let n := digits.foldl (fun n c => n * 10 + (c.toNat - 48)) 0
  if digits.isEmpty || !digits.all Char.isDigit || 65535 < n || (negative && n != 0) then none
  else some n.toUInt16

/-- Gives an option its value, which it must not have yet. -/
def set? (c : CommandLine) (value : List Char) : Setting → Option CommandLine
  | .logLevel => if c.logLevel.isSome then none else some { c with logLevel := some (String.ofList value) }
  | .port =>
    if c.port.isSome then none else (port? value).map fun port => { c with port := some port }

/-- Takes the path of the configuration, which must not be empty or be there already. -/
def setConfig? (c : CommandLine) (path : String) : Option CommandLine :=
  if c.config.isSome || path.isEmpty then none else some { c with config := some path }

/-- One argument. -/
inductive Argument
  | ends
  | path (text : String)
  | setting (s : Setting) (value : Option (List Char))
  | check
  | version
  | help
  | unknown
  deriving DecidableEq, Repr, Inhabited

/-- An argument with a long name, and perhaps a value behind an equals sign. -/
def Argument.long (text : List Char) : Argument :=
  let name := String.ofList (text.takeWhile (· != '='))
  let value := match text.dropWhile (· != '=') with
    | [] => none
    | _ :: v => some v
  if name == "log-level" then .setting .logLevel value
  else if name == "port" then .setting .port value
  else if value.isSome then .unknown
  else if name == "check" then .check
  else if name == "version" then .version
  else if name == "help" then .help
  else .unknown

/-- The value that stands in one argument with a short name, perhaps behind an equals sign. -/
def attached : List Char → Option (List Char)
  | [] => none
  | '=' :: value => some value
  | value => some value

/-- An argument with short names. -/
def Argument.short : List Char → Argument
  | 'l' :: rest => .setting .logLevel (attached rest)
  | 'p' :: rest => .setting .port (attached rest)
  | 'V' :: _ => .version
  | 'h' :: _ => .help
  | _ => .unknown

/-- What an argument is by its dashes. -/
def Argument.ofText (text : String) : Argument :=
  match text.toList with
  | ['-', '-'] => .ends
  | '-' :: '-' :: rest => .long rest
  | ['-'] => .path text
  | '-' :: rest => .short rest
  | _ => .path text

/-- Takes paths only. -/
def takePaths (c : CommandLine) : List String → Meaning
  | [] => .run c
  | path :: rest => match c.setConfig? path with
    | some c => takePaths c rest
    | none => .misuse

/-- Takes arguments from left to right; `pending` is an option that waits for its value. -/
def take (c : CommandLine) : (pending : Option Setting) → List String → Meaning
  | none, [] => .run c
  | some _, [] => .misuse
  | some s, text :: rest => match Argument.ofText text with
    | .path value => match c.set? value.toList s with
      | some c => take c none rest
      | none => .misuse
    | _ => .misuse
  | none, text :: rest => match Argument.ofText text with
    | .ends => takePaths c rest
    | .path path => match c.setConfig? path with
      | some c => take c none rest
      | none => .misuse
    | .setting s none => take c (some s) rest
    | .setting s (some value) => match c.set? value s with
      | some c => take c none rest
      | none => .misuse
    | .check => if c.check then .misuse else take { c with check := true } none rest
    | .version => .version
    | .help => .help
    | .unknown => .misuse

/-- Understands the arguments of a command line. -/
def parse (args : List String) : Meaning := take {} none args

end CommandLine

end Gatehouse
