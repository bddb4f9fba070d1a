import Gatehouse.Bytes

/-!
# Punycode

Letters beyond ASCII in a label of a domain name are written as positions in base 36. `encode`
writes them and `decode?` reads them back.
-/

namespace Gatehouse.Url.Punycode

/-- How many values a digit has. -/
def base : Nat := 36

/-- The threshold of the digit at position `k` times the base: 1 at most 26 beyond the bias. -/
def threshold (k bias : Nat) : Nat := min 26 (max 1 (k - bias))

/-- Divides a delta by 35 until it is at most 455, counting the digits that takes. -/
def reduce (delta k : Nat) : Nat × Nat :=
  if _h : 455 < delta then reduce (delta / 35) (k + base) else (delta, k)
termination_by delta
decreasing_by omega

/-- The bias after a delta, when `count` code points have been placed. -/
def adapt (delta count : Nat) (first : Bool) : Nat :=
  let delta := if first then delta / 700 else delta / 2
  let (delta, k) := reduce (delta + delta / count) 0
  k + 36 * delta / (delta + 38)

/-- The letter or digit of a value below 36. -/
def digit (n : Nat) : Char := if n < 26 then Char.ofNat (97 + n) else Char.ofNat (22 + n)

/-- The value of a letter or digit. -/
def digitValue? (c : Char) : Option Nat :=
  if 'a' ≤ c && c ≤ 'z' then some (c.toNat - 97)
  else if 'A' ≤ c && c ≤ 'Z' then some (c.toNat - 65)
  else if c.isDigit then some (c.toNat - 22)
  else none

/-- The digits of a delta, the least significant first. -/
def digits (q k bias : Nat) (fuel : Nat) : List Char :=
  match fuel with
  | 0 => []
  | fuel + 1 =>
    let t := threshold k bias
    if q < t then [digit q]
    else digit (t + (q - t) % (base - t)) :: digits ((q - t) / (base - t)) (k + base) bias fuel

/-- What an encoder carries from one code point to the next. -/
structure State where
  delta : Nat
  bias : Nat
  handled : Nat
  first : Bool

/-- Goes over a label for the code point `n`: each smaller one adds to the delta, and each equal
one writes it. -/
def place (n : Nat) : State → List Char → State × List Char
  | s, [] => (s, [])
  | s, c :: cs =>
    if c.toNat < n then place n { s with delta := s.delta + 1 } cs
    else if c.toNat = n then
      let next : State := ⟨0, adapt s.delta (s.handled + 1) s.first, s.handled + 1, false⟩
      let (s', out) := place n next cs
      (s', digits s.delta base s.bias (s.delta + 1) ++ out)
    else place n s cs

/-- Places the code points `points`, in increasing order, beginning behind code point `n`. -/
def placeAll (label : List Char) : Nat → State → List Nat → List Char
  | _, _, [] => []
  | n, s, m :: points =>
    let (s, out) := place m { s with delta := s.delta + (m - n) * (s.handled + 1) } label
    out ++ placeAll label (m + 1) { s with delta := s.delta + 1 } points

/-- A label with its letters beyond ASCII written as digits. -/
def encode (label : List Char) : List Char :=
  let basic := label.filter (·.toNat < 0x80)
  let points := ((label.map Char.toNat).filter (0x80 ≤ ·)).mergeSort.eraseDups
  let delimited := if basic.isEmpty then [] else basic ++ ['-']
  delimited ++ placeAll label 0x80 ⟨0, 72, basic.length, true⟩ points

/-- Reads one delta: the value added to `i`, and what is left. -/
def readDelta (i weight k bias : Nat) : List Char → Option (Nat × List Char)
  | [] => none
  | c :: cs => do
    let d ← digitValue? c
    let i := i + d * weight
    if Nat.pow 2 32 ≤ i then none
    else
      let t := threshold k bias
      if d < t then some (i, cs) else readDelta i (weight * (base - t)) (k + base) bias cs

/-- Reads the deltas of a label and puts each code point in its place; `fuel` bounds their
number. -/
def readAll (label : List Char) (i n bias : Nat) (first : Bool) (cs : List Char) :
    (fuel : Nat) → Option (List Char)
  | 0 => if cs.isEmpty then some label else none
  | fuel + 1 =>
    if cs.isEmpty then some label
    else do
      let (j, rest) ← readDelta i 1 base bias cs
      let count := label.length + 1
      let n := n + j / count
      if Nat.isValidChar n then
        let at_ := j % count
        readAll (label.take at_ ++ Char.ofNat n :: label.drop at_) (at_ + 1) n
          (adapt (j - i) count first) false rest fuel
      else none

/-- The label that an encoded one stands for. -/
def decode? (encoded : List Char) : Option (List Char) :=
  let (basic, tail) := match encoded.reverse.span (· ≠ '-') with
    | (tail, '-' :: basic) => (basic.reverse, tail.reverse)
    | (tail, _) => ([], tail.reverse)
  if basic.all (·.toNat < 0x80) then readAll basic 0 0x80 72 true tail tail.length else none

end Gatehouse.Url.Punycode
