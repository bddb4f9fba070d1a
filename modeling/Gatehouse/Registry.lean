import Gatehouse.Args

/-!
# Registries

A registry is a collection of named builders of one kind of instance. Names are unique, and what is
built comes from the builder of the name asked for.
-/

namespace Gatehouse

/-- Named builders of instances of `α`, in the order registered. -/
structure Registry (α : Type u) where
  kind : String
  builders : List (String × (Args → Except BuildError α)) := []

namespace Registry

variable {α : Type u}

/-- The builder of a name. -/
def get? (r : Registry α) (name : String) : Option (Args → Except BuildError α) :=
  r.builders.lookup name

/-- Whether a name has a builder. -/
def contains (r : Registry α) (name : String) : Bool := (r.get? name).isSome

/-- Adds a builder under a name that has none yet. -/
def register (r : Registry α) (name : String) (builder : Args → Except BuildError α) :
    Except ConfigError (Registry α) :=
  if r.contains name then .error (.alreadyRegistered r.kind name)
  else .ok { r with builders := r.builders ++ [(name, builder)] }

/-- The names in order. -/
def names (r : Registry α) : List String :=
  (r.builders.map Prod.fst).mergeSort fun a b => decide (a ≤ b)

/-- How many builders there are. -/
def size (r : Registry α) : Nat := r.builders.length

/-- Builds an instance by name. -/
def build (r : Registry α) (name : String) (args : Args) : Except BuildError α :=
  match r.get? name with
  | some builder => builder args
  | none => .error (.unknown r.kind name)

end Registry

end Gatehouse
