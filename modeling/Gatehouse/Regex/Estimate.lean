import Gatehouse.Regex.Expr

/-!
# An estimate of how large expressions get

A program that is to run needs some measure of what an expression takes when it is spelled out.
`Capacity.estimated` goes by an estimate in bytes. Nothing is proved of other expressions from it than
of those that it is evaluated at.
-/

namespace Gatehouse.Regex

open Unicode (CharSet)

/-- The bytes that a set of characters takes. -/
def Expr.setSize (set : CharSet) : Nat :=
  if set.ranges.all fun (_, last) => last < 128 then 32 + 8 * set.ranges.length
  else max 450 (70 * set.ranges.length)

/-- The bytes that an expression takes when it is spelled out. -/
def Expr.size : Expr → Nat
  | .empty => 32
  | .one set => setSize set
  | .look _ => 32
  | .seq a b => a.size + b.size
  | .alt a b => a.size + b.size + 32
  | .repetition low high _ a => max low (high.getD (max low 1)) * (a.size + 32)
  | .group _ a => a.size + 64

/-- Room for what stays within the limit by the estimate. -/
def Capacity.estimated : Capacity := fun e => e.size ≤ sizeLimit

end Gatehouse.Regex
