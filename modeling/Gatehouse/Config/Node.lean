import Gatehouse.Args
import Gatehouse.Json.Value

/-!
# Untyped configuration trees

A configuration may be written in several formats. `Config.Node` is what each of them means before
the fields are typed, and the readers below say what a text, a number, a duration or a list may be
written as. `Node.toValue` makes arguments of a tree; `Node.ofValue` is its inverse.
-/

namespace Gatehouse.Config

/-- A scalar, as a reader without a type takes it. -/
inductive Scalar
  | null
  | bool (b : Bool)
  | int (n : Int)
  | double (d : Double)
  | text (s : String)
  deriving DecidableEq, Repr, Inhabited

/-- The key of a field. -/
structure Key where
  /-- How the key is spelled, unless it cannot be read. -/
  spelling : Option String
  /-- Whether the key is a text also to a reader without a type. -/
  isText : Bool := true
  deriving DecidableEq, Repr, Inhabited

/-- The tree that a configuration text spells. -/
inductive Node
  /-- A scalar, with its spelling if a reader of texts takes that. -/
  | scalar (value : Scalar) (spelling : Option String)
  | sequence (items : List Node)
  | mapping (fields : List (Key × Node))
  /-- Something that only a reader who skips it accepts. -/
  | unreadable
  deriving Inhabited

/-- Why a tree is not what is asked for. -/
inductive Fault
  | wrongType
  | outOfRange
  | unreadable
  | missing (field : String)
  | repeated (field : String)
  | tooManyItems
  | badDuration (text : String)
  | negativeDuration
  deriving DecidableEq, Repr, Inhabited

/-- The wording of a fault. -/
def Fault.message : Fault → String
  | .wrongType => "invalid type"
  | .outOfRange => "number out of range"
  | .unreadable => "unreadable value"
  | .missing field => s!"missing field '{field}'"
  | .repeated field => s!"duplicate field '{field}'"
  | .tooManyItems => "too many items"
  | .badDuration text => s!"invalid duration '{text}'"
  | .negativeDuration => "duration must not be negative"

namespace Node

/-- A text that is a text in every format. -/
def ofText (s : String) : Node := .scalar (.text s) (some s)

/-! ## JSON trees -/

/-- The scalar of a JSON number. -/
def scalarOfNumber : Json.Number → Scalar
  | .int n => .int n
  | .double d => .double d

mutual

/-- The tree of a JSON document of which at most `depth` levels may be nested. -/
def ofDocument : (depth : Nat) → Json.Document → Node
  | _, .null => .scalar .null none
  | _, .bool b => .scalar (.bool b) none
  | _, .number n => match n.toNumber? with
    | some n => .scalar (scalarOfNumber n) none
    | none => .unreadable
  | _, .string (some s) => ofText s
  | _, .string none => .unreadable
  | 0, .array _ => .unreadable
  | 0, .object _ => .unreadable
  | depth + 1, .array items => .sequence (ofDocuments depth items)
  | depth + 1, .object fields => .mapping (ofFields depth fields)

/-- The trees of the items of a JSON array. -/
def ofDocuments : (depth : Nat) → List Json.Document → List Node
  | _, [] => []
  | depth, x :: xs => ofDocument depth x :: ofDocuments depth xs

/-- The trees of the fields of a JSON object. -/
def ofFields : (depth : Nat) → List (Option String × Json.Document) → List (Key × Node)
  | _, [] => []
  | depth, (key, x) :: rest => (⟨key, true⟩, ofDocument depth x) :: ofFields depth rest

end

mutual

/-- The tree of a JSON value. -/
def ofValue : Json.Value → Node
  | .null => .scalar .null none
  | .bool b => .scalar (.bool b) none
  | .number n => .scalar (scalarOfNumber n) none
  | .string s => ofText s
  | .array items => .sequence (ofValues items)
  | .object fields => .mapping (ofValueFields fields)

/-- The trees of the items of an array. -/
def ofValues : List Json.Value → List Node
  | [] => []
  | v :: vs => ofValue v :: ofValues vs

/-- The trees of the fields of an object. -/
def ofValueFields : Json.Fields → List (Key × Node)
  | [] => []
  | (k, v) :: rest => (⟨some k, true⟩, ofValue v) :: ofValueFields rest

end

/-! ## Values -/

/-- The JSON value of a scalar: an integer fits a signed or an unsigned word of 64 bits, and a
double that is no number is `null`. -/
def valueOfScalar : Scalar → Except Fault Json.Value
  | .null => .ok .null
  | .bool b => .ok (.bool b)
  | .int n => if -Int.pow 2 63 ≤ n ∧ n < Int.pow 2 64 then .ok (.number (.int n)) else .error .outOfRange
  | .double d => .ok (if d.isFinite then .number (.double d) else .null)
  | .text s => .ok (.string s)

mutual

/-- The JSON value of a tree; of two fields with one key the last one counts. -/
def toValue : Node → Except Fault Json.Value
  | .scalar s _ => valueOfScalar s
  | .sequence items => (toValues items).map .array
  | .mapping fields => (toFields [] fields).map .object
  | .unreadable => .error .unreadable

/-- The values of the items of a sequence. -/
def toValues : List Node → Except Fault (List Json.Value)
  | [] => .ok []
  | x :: xs => do
    let v ← toValue x
    return v :: (← toValues xs)

/-- Adds the values of the fields of a mapping to the fields so far; every key is a text. -/
def toFields : Json.Fields → List (Key × Node) → Except Fault Json.Fields
  | fields, [] => .ok fields
  | fields, (key, x) :: rest => do
    match key with
    | ⟨some k, true⟩ =>
      let v ← toValue x
      toFields (Json.Fields.insert k v fields) rest
    | _ => .error .wrongType

end

mutual

/-- Whether a reader without a type gets through a tree. -/
def isReadable : Node → Bool
  | .scalar s _ => (valueOfScalar s).isOk
  | .sequence items => areReadable items
  | .mapping fields => fieldsAreReadable fields
  | .unreadable => false

/-- Whether a reader without a type gets through each item. -/
def areReadable : List Node → Bool
  | [] => true
  | x :: xs => isReadable x && areReadable xs

/-- Whether a reader without a type gets through each field. -/
def fieldsAreReadable : List (Key × Node) → Bool
  | [] => true
  | (key, x) :: rest => key.spelling.isSome && isReadable x && fieldsAreReadable rest

end

/-! ## Typed readers -/

/-- A text. -/
def text : Node → Except Fault String
  | .scalar _ (some s) => .ok s
  | _ => .error .wrongType

/-- A natural number below a limit. -/
def natBelow (limit : Nat) : Node → Except Fault Nat
  | .scalar (.int n) _ => if 0 ≤ n ∧ n < limit then .ok n.toNat else .error .outOfRange
  | _ => .error .wrongType

/-- A truth value. -/
def bool : Node → Except Fault Bool
  | .scalar (.bool b) _ => .ok b
  | _ => .error .wrongType

/-- A duration: a text with units, or a number of nanoseconds. -/
def duration : Node → Except Fault Duration
  | .scalar (.text s) _ => match Duration.parse? (Text.trimBy Text.isBlank s.toList) with
    | some d => .ok d
    | none => .error (.badDuration s)
  | .scalar (.int n) _ =>
    if 0 ≤ n ∧ n < Int.pow 2 64 then .ok n.toNat
    else if -Int.pow 2 63 ≤ n ∧ n < 0 then .error .negativeDuration
    else .error .wrongType
  | _ => .error .wrongType

/-- Something that may be left out as `null`. -/
def optional {α : Type} (read : Node → Except Fault α) : Node → Except Fault (Option α)
  | .scalar .null _ => .ok none
  | x => (read x).map some

/-- The items of a list; a value left empty is an empty list. -/
def list {α : Type} (read : Node → Except Fault α) : Node → Except Fault (List α)
  | .sequence items => items.mapM read
  | .scalar .null (some "") => .ok []
  | _ => .error .wrongType

/-! ## Structures -/

/-- The fields that were given of a structure. -/
abbrev Given := List (String × Node)

/-- Picks the fields with known names; none may be given twice and every key has a spelling. -/
def known (names : List String) : List (Key × Node) → Except Fault Given
  | [] => .ok []
  | (key, x) :: rest => do
    match key.spelling with
    | none => .error .unreadable
    | some k =>
      let given ← known names rest
      if k ∈ names then
        if (given.lookup k).isSome then .error (.repeated k) else return (k, x) :: given
      else return given

/-- The given fields of a structure whose fields have these names: a mapping, the fields' values in
the order of the names, or a value left empty. -/
def structure? (names : List String) : Node → Except Fault Given
  | .mapping fields => known names fields
  | .sequence items =>
    if items.length ≤ names.length then .ok (names.zip items) else .error .tooManyItems
  | .scalar .null (some "") => .ok []
  | _ => .error .wrongType

/-- The value of a field, or a default where it is not given. -/
def Given.get {α : Type} (given : Given) (name : String) (read : Node → Except Fault α)
    (default : α) : Except Fault α :=
  match given.lookup name with
  | some x => read x
  | none => .ok default

/-- The value of a field that must be given. -/
def Given.require {α : Type} (given : Given) (name : String) (read : Node → Except Fault α) :
    Except Fault α :=
  match given.lookup name with
  | some x => read x
  | none => .error (.missing name)

end Node

end Gatehouse.Config
