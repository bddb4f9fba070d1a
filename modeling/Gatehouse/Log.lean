import Gatehouse.Bytes

/-!
# Log events

Events have a level, a message and named fields. A threshold lets through the events up to a level,
or none.
-/

namespace Gatehouse

/-- How grave an event is. -/
inductive Level
  | error
  | warn
  | info
  | debug
  | trace
  deriving DecidableEq, Repr, Inhabited

namespace Level

/-- The place of a level, counted from the gravest. -/
def rank : Level → Nat
  | .error => 1
  | .warn => 2
  | .info => 3
  | .debug => 4
  | .trace => 5

/-- The level of a rank. -/
def ofRank? : Nat → Option Level
  | 1 => some .error
  | 2 => some .warn
  | 3 => some .info
  | 4 => some .debug
  | 5 => some .trace
  | _ => none

/-- The name of a level. -/
def name : Level → String
  | .error => "error"
  | .warn => "warn"
  | .info => "info"
  | .debug => "debug"
  | .trace => "trace"

/-- The level of a name in lower case. -/
def ofName? (name : String) : Option Level :=
  [Level.error, .warn, .info, .debug, .trace].find? fun l => l.name == name

/-- A number of 64 bits, with an optional plus sign. -/
def number? (text : String) : Option Nat :=
  let digits := match Bytes.ofString text with
    | 0x2B :: rest => rest
    | bs => bs
  (Bytes.toNat? digits).filter (· < Nat.pow 2 64)

/-- The level that a text names, in any case or by its rank. -/
def ofText? (text : String) : Option Level :=
  match number? text with
  | some n => ofRank? n
  | none => ofName? (text.map Char.toLower)

end Level

/-- The gravest levels up to one, or none. -/
abbrev Threshold := Option Level

namespace Threshold

/-- Whether a threshold lets an event of a level through. -/
def allows (t : Threshold) (l : Level) : Bool := t.any fun cap => l.rank ≤ cap.rank

/-- The name of a threshold. -/
def name (t : Threshold) : String := (t.map Level.name).getD "off"

/-- The threshold that a text names; an empty text stands for errors only. -/
def ofText? (text : String) : Option Threshold :=
  match Level.number? text with
  | some 0 => some none
  | some n => (Level.ofRank? n).map some
  | none =>
    let lower := text.map Char.toLower
    if lower == "" then some (some .error)
    else if lower == "off" then some none
    else (Level.ofName? lower).map some

end Threshold

/-- The value of a field of an event. -/
inductive FieldValue
  | text (s : String)
  | number (n : Nat)
  | lines (ls : List String)
  deriving DecidableEq, Repr, Inhabited

/-- An event. -/
structure Event where
  level : Level
  message : String
  fields : List (String × FieldValue) := []
  deriving DecidableEq, Repr, Inhabited

end Gatehouse
