import Gatehouse.RateLimit.Bucket

/-!
# Rate limiters

A limiter keeps a bucket for each key, which is created full when the key is first seen. A call is
two steps, to find its bucket and to take from it.
-/

namespace Gatehouse

/-- Buckets by key, all of one rate and burst. -/
structure Limiter (α : Type) where
  rate : α
  burst : Nat
  buckets : List (String × TokenBucket α) := []
  deriving Repr

namespace Limiter

variable {α : Type} [Amount α]

/-- The bucket of a key. -/
def bucket? (l : Limiter α) (key : String) : Option (TokenBucket α) := l.buckets.lookup key

/-- Creates the bucket of a key, unless there is one. -/
def ensure (l : Limiter α) (key : String) (now : Duration) : Limiter α :=
  if (l.bucket? key).isSome then l
  else { l with buckets := l.buckets ++ [(key, .full l.rate l.burst now)] }

/-- Puts a bucket in the place of the one of its key. -/
def replace (l : Limiter α) (key : String) (bucket : TokenBucket α) : Limiter α :=
  { l with buckets := l.buckets.map fun (k, b) => (k, if k = key then bucket else b) }

/-- Takes from the bucket of a key. -/
def take (l : Limiter α) (key : String) (now : Duration) : Decision × Limiter α :=
  match l.bucket? key with
  | some bucket =>
    let (decision, bucket) := bucket.allow now
    (decision, l.replace key bucket)
  | none => (⟨false, 0⟩, l)

/-- Asks for a call under a key. -/
def allow (l : Limiter α) (key : String) (now : Duration) : Decision × Limiter α :=
  (l.ensure key now).take key now

/-- How many keys have been seen. -/
def size (l : Limiter α) : Nat := l.buckets.length

end Limiter

end Gatehouse
