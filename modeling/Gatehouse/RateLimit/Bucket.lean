import Gatehouse.Double
import Gatehouse.Time.Duration

/-!
# Token buckets

A bucket holds tokens up to its burst and gains them at its rate; a call is allowed if it can take
one. The arithmetic is that of an `Amount`, so that the same bucket runs on machine floats and on
exact numbers.
-/

namespace Gatehouse

/-- Numbers that tokens are counted in. -/
class Amount (α : Type) where
  ofNat : Nat → α
  /-- The seconds of a duration. -/
  seconds : Duration → α
  add : α → α → α
  sub : α → α → α
  mul : α → α → α
  le : α → α → Bool
  /-- The whole part of a number, zero for a negative one. -/
  wholePart : α → Nat

/-- Machine floats; the seconds and the nanoseconds of a duration are converted one by one. -/
instance : Amount Float where
  ofNat n := n.toUInt64.toFloat
  seconds d := d.seconds.toUInt64.toFloat + d.subsecond.toUInt64.toFloat / 1000000000.0
  add := (· + ·)
  sub := (· - ·)
  mul := (· * ·)
  le a b := a ≤ b
  wholePart x := x.floor.toUInt64.toNat

/-- What a bucket or a limiter answers. -/
structure Decision where
  allowed : Bool
  remaining : Nat
  deriving DecidableEq, Repr, Inhabited

/-- A bucket of tokens. -/
structure TokenBucket (α : Type) where
  rate : α
  burst : α
  tokens : α
  updated : Duration
  deriving Repr

namespace TokenBucket

variable {α : Type} [Amount α]

/-- A full bucket. -/
def full (rate : α) (burst : Nat) (now : Duration) : TokenBucket α :=
  ⟨rate, Amount.ofNat burst, Amount.ofNat burst, now⟩

/-- Adds the tokens gained since the last time, up to the burst. -/
def refill (b : TokenBucket α) (now : Duration) : TokenBucket α :=
  let gained := Amount.add b.tokens (Amount.mul (Amount.seconds (now - b.updated)) b.rate)
  { b with tokens := if Amount.le gained b.burst then gained else b.burst, updated := now }

/-- Takes a token if there is one. -/
def take (b : TokenBucket α) : Decision × TokenBucket α :=
  let allowed := Amount.le (Amount.ofNat 1) b.tokens
  let left := if allowed then Amount.sub b.tokens (Amount.ofNat 1) else b.tokens
  (⟨allowed, Amount.wholePart left⟩, { b with tokens := left })

/-- Asks for a call. -/
def allow (b : TokenBucket α) (now : Duration) : Decision × TokenBucket α := (b.refill now).take

end TokenBucket

end Gatehouse
