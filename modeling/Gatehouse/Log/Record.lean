import Gatehouse.Log

/-!
# Log records

A record is an event with the part of the program that it comes from. A `Logged` computation leaves
records behind, also when it fails.
-/

namespace Gatehouse

/-- An event and where it comes from. -/
structure Record extends Event where
  /-- The part of the program. -/
  origin : String
  deriving DecidableEq, Repr, Inhabited

/-- A computation that may fail and leaves records. -/
abbrev Logged (ε α : Type) := ExceptT ε (StateM (List Record)) α

namespace Logged

/-- Leaves a record. -/
def note {ε : Type} (origin : String) (level : Level) (message : String)
    (fields : List (String × FieldValue) := []) : Logged ε Unit := do
  modify (· ++ [{ level, message, fields, origin }])

/-- The outcome of a computation and the records that it leaves. -/
def collect {ε α : Type} (m : Logged ε α) : Except ε α × List Record := m.run.run []

end Logged

end Gatehouse
