import Gatehouse.Error
import Gatehouse.Json.Value
import Gatehouse.Time.Timestamp

/-!
# Arguments

Predicates, filters, limiters and key functions are built from a map of arguments. `Args` keeps the
values as they were given and hands out typed ones; each reader fails with the argument's name and
what it should have been.
-/

namespace Gatehouse

/-- The arguments of a builder: fields sorted by name. -/
structure Args where
  fields : Json.Fields := []
  deriving Inhabited, Repr

/-- A builder's name with its arguments. -/
structure Spec where
  name : String
  args : Args := {}
  deriving Inhabited, Repr

namespace Args

/-- The arguments of a value; `null` stands for none. -/
def ofValue : Json.Value → Except BuildError Args
  | .null => .ok {}
  | .object fields => .ok ⟨fields⟩
  | _ => .error (.invalid "args" "an object")

/-- Adds or replaces an argument. -/
def insert (args : Args) (name : String) (value : Json.Value) : Args :=
  ⟨Json.Fields.insert name value args.fields⟩

/-- Whether there are no arguments at all. -/
def isEmpty (args : Args) : Bool := args.fields.isEmpty

/-- The value of an argument; one that is `null` counts as absent. -/
def get? (args : Args) (name : String) : Option Json.Value :=
  (Json.Fields.get? args.fields name).filter fun v => !v.isNull

/-- Whether an argument is present. -/
def contains (args : Args) (name : String) : Bool := (args.get? name).isSome

/-- The value of an argument that must be present. -/
def require (args : Args) (name : String) : Except BuildError Json.Value :=
  match args.get? name with
  | some v => .ok v
  | none => .error (.missing name)

/-- A text. -/
def getString (args : Args) (name : String) : Except BuildError String := do
  match ← args.require name with
  | .string s => return s
  | _ => throw (.invalid name "a string")

/-- A text, if the argument is present. -/
def getString? (args : Args) (name : String) : Except BuildError (Option String) :=
  match args.get? name with
  | none => .ok none
  | some (.string s) => .ok (some s)
  | some _ => .error (.invalid name "a string")

/-- The natural number of a number: one that is kept as a double must be whole and at most `2 ^ 64`,
and the largest word stands for `2 ^ 64` itself. -/
def natOfNumber? : Json.Number → Option Nat
  | .int n => n.toNat?
  | .double d => do
    let n ← (← d.toInt?).toNat?
    if n ≤ Nat.pow 2 64 then some (min n (Nat.pow 2 64 - 1)) else none

/-- A natural number of 64 bits. -/
def getNat (args : Args) (name : String) : Except BuildError Nat := do
  match ← args.require name with
  | .number n => match natOfNumber? n with
    | some n => return n
    | none => throw (.invalid name "a non-negative integer")
  | _ => throw (.invalid name "a non-negative integer")

/-- The double nearest to a number. -/
def doubleOfNumber : Json.Number → Double
  | .int n =>
    let magnitude := n.natAbs.toUInt64.toFloat
    .ofFloat (if n < 0 then -magnitude else magnitude)
  | .double d => d

/-- A number. -/
def getDouble (args : Args) (name : String) : Except BuildError Double := do
  match ← args.require name with
  | .number n => return doubleOfNumber n
  | _ => throw (.invalid name "a number")

/-- A list of texts; a single text is a list of one. -/
def getStrings (args : Args) (name : String) : Except BuildError (List String) := do
  let expected := "a string or a non-empty list of strings"
  match ← args.require name with
  | .string s => return [s]
  | .array (item :: items) =>
    match (item :: items).mapM Json.Value.string? with
    | some texts => return texts
    | none => throw (.invalid name expected)
  | _ => throw (.invalid name expected)

/-- A duration: a text with units or a number of nanoseconds. -/
def getDuration (args : Args) (name : String) : Except BuildError Duration := do
  let expected := "a duration string or integer nanoseconds"
  let duration := match ← args.require name with
    | .string s => Duration.parse? (Text.trimBy Text.isBlank s.toList)
    | .number (.int n) => n.toNat?
    | _ => none
  match duration with
  | some d => return d
  | none => throw (.invalid name expected)

/-- An instant. -/
def getTimestamp (args : Args) (name : String) : Except BuildError Timestamp := do
  match ← args.require name with
  | .string s => match Timestamp.parse? s.toList with
    | some t => return t
    | none => throw (.invalid name "an RFC 3339 timestamp")
  | _ => throw (.invalid name "an RFC 3339 timestamp")

/-- The spec that a value stands for: a bare name, or a name with arguments. -/
def specOfValue? : Json.Value → Option Spec
  | .string name => some ⟨name, {}⟩
  | .object fields => do
    let name ← (← Json.Fields.get? fields "name").string?
    match Json.Fields.get? fields "args" with
    | none => return ⟨name, {}⟩
    | some v => return ⟨name, ← (ofValue v).toOption⟩
  | _ => none

/-- The spec of a nested builder, if the argument is present. -/
def getSpec? (args : Args) (name : String) : Except BuildError (Option Spec) :=
  match args.get? name with
  | none => .ok none
  | some v => match specOfValue? v with
    | some spec => .ok (some spec)
    | none => .error (.invalid name "a builder name or an object with 'name' and 'args'")

end Args

end Gatehouse
