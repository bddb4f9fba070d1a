import Gatehouse.Log.Record
import Gatehouse.Text.Blank
import Gatehouse.Unicode.Category
import Gatehouse.Unicode.Property

/-!
# Log directives

A list of directives says which records are logged. A directive gives a level to the records of all
origins, of those that begin with a text, or of those that have certain fields; the most specific
one that a record falls under decides. A directive may also name a span, and then it is about what
happens within such a span.
-/

namespace Gatehouse.Log

/-- A field that a directive asks for, perhaps with a value. -/
structure FieldPattern where
  name : String
  value : Option String := none
  deriving DecidableEq, Repr, Inhabited

/-- A directive. -/
structure Directive where
  level : Threshold := some .trace
  origin : Option String := none
  span : Option String := none
  fields : List FieldPattern := []
  deriving DecidableEq, Repr, Inhabited

/-- Why a text is no directive. -/
inductive DirectiveFault
  | shape
  | level
  deriving DecidableEq, Repr, Inhabited

/-- The wording of a fault, from the directive down to the part that is wrong. -/
def DirectiveFault.causes : DirectiveFault → List String
  | .shape => ["invalid filter directive"]
  | .level =>
    let text := "error parsing level filter: expected one of \"off\", \"error\", \"warn\", " ++
      "\"info\", \"debug\", \"trace\", or a number 0-5"
    [text, text]

namespace Directive

/-- A directive with the level that a text gives it; an empty text gives it every level. -/
def withLevel (d : Directive) (text : List Char) : Except DirectiveFault Directive :=
  if text.isEmpty then .ok d
  else match Threshold.ofText? (String.ofList text) with
    | some level => .ok { d with level }
    | none => .error .level

/-- What may follow the brackets of a directive: nothing, or a level. -/
def afterBrackets (d : Directive) : List Char → Except DirectiveFault Directive
  | [] => .ok d
  | '=' :: level => d.withLevel level
  | _ => .error .shape

/-- The pattern of a field. -/
def fieldPattern (text : List Char) : FieldPattern :=
  match Text.splitOnce '=' text with
  | none => ⟨String.ofList text, none⟩
  | some (name, value) => ⟨String.ofList name, some (String.ofList (value.takeWhile (· != '=')))⟩

/-- The rest of a directive behind an opening brace. -/
def inBraces (d : Directive) (text : List Char) : Except DirectiveFault Directive :=
  match Text.splitOnce '\x7d' text with
  | some (field, ']' :: rest) =>
    if field.isEmpty then .error .shape
    else afterBrackets { d with fields := [fieldPattern field] } rest
  | _ => .error .shape

/-- Whether a character ends the name of a span. -/
def endsSpan (c : Char) : Bool := c == ']' || c == '\x7b'

/-- The rest of a directive behind an opening bracket. -/
def inBrackets (d : Directive) (text : List Char) : Except DirectiveFault Directive :=
  let span := text.takeWhile fun c => !endsSpan c
  match text.dropWhile fun c => !endsSpan c with
  | ']' :: rest => afterBrackets { d with span := some (String.ofList span) } rest
  | _ :: rest =>
    inBraces { d with span := if span.isEmpty then none else some (String.ofList span) } rest
  | [] => .error .shape

/-- Whether a directive may begin with a character. -/
def mayBegin (c : Char) : Bool :=
  ['[', '-', ':', '_'].contains c || Unicode.alphabetic.contains c ||
    (Unicode.categorySet? ['N']).any (·.contains c)

/-- Reads one directive. A text without marks is a level, or else an origin. -/
def parse (text : List Char) : Except DirectiveFault Directive :=
  let head := text.takeWhile fun c => c != '=' && c != '['
  let origin := some (String.ofList head)
  if !text.head?.any mayBegin then .error .shape
  else match text.dropWhile fun c => c != '=' && c != '[' with
    | [] => match Threshold.ofText? (String.ofList head) with
      | some level => .ok { level }
      | none => .ok { origin }
    | '=' :: level => withLevel { origin } level
    | _ :: rest => inBrackets { origin := if head.isEmpty then none else origin } rest

/-- Whether a directive is about records by themselves, not about what happens in a span or while a
field has a value. -/
def isStatic (d : Directive) : Bool := d.span.isNone && d.fields.all (·.value.isNone)

/-- Whether a directive is about a record. -/
def concerns (d : Directive) (r : Record) : Bool :=
  d.isStatic && d.origin.all (r.origin.startsWith ·) &&
    d.fields.all fun f => f.name == "message" || (r.fields.lookup f.name).isSome

/-- Whether a directive is at least as specific as another about the same record: it has the longer
origin, or more fields, or the later ones. -/
def outranks (d e : Directive) : Bool :=
  let size (d : Directive) : Nat := (d.origin.map fun o => o.utf8ByteSize + 1).getD 0
  let names (d : Directive) := d.fields.map fun f => f.name.toList.map Char.toNat
  if size d ≠ size e then size e < size d
  else if d.fields.length ≠ e.fields.length then e.fields.length < d.fields.length
  else !(names d).lex (names e) (fun a b => a.lex b)

end Directive

/-- A list of directives; of equal ones the last counts. -/
abbrev Directives := List Directive

namespace Directives

/-- Reads a list with commas between the directives. -/
def parse (text : String) : Except DirectiveFault Directives :=
  ((Text.splitOn ',' text.toList).filter fun d => !d.isEmpty).mapM Directive.parse

/-- The directive that decides about a record. -/
def decisive? (ds : Directives) (r : Record) : Option Directive :=
  (ds.filter (·.concerns r)).foldl (fun best d => match best with
    | none => some d
    | some b => if d.outranks b then some d else some b) none

/-- Whether a record is logged. -/
def allows (ds : Directives) (r : Record) : Bool :=
  ((decisive? ds r).map fun d => Threshold.allows d.level r.level).getD false

end Directives

end Gatehouse.Log
