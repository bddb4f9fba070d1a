import Gatehouse.Text.Blank

/-!
# Durations

A duration is a count of nanoseconds. In text it is a sequence of numbers with units, such as
`1h 30m`; `Duration.format` writes the largest units first and `Duration.parse?` reads any
sequence, with a decimal fraction where it is exact.
-/

namespace Gatehouse

/-- A span of time in nanoseconds. -/
abbrev Duration := Nat

namespace Duration

/-- A span of whole milliseconds. -/
def ofMillis (n : Nat) : Duration := n * 1000000

/-- A span of whole seconds. -/
def ofSeconds (n : Nat) : Duration := n * 1000000000

/-- The whole seconds of a span. -/
def seconds (d : Duration) : Nat := d / 1000000000

/-- The nanoseconds beyond the whole seconds of a span. -/
def subsecond (d : Duration) : Nat := d % 1000000000

/-- A span in text has fewer than this many seconds, and each number in it is below it. -/
def limit : Nat := Nat.pow 2 64

/-- A unit of time. -/
inductive Unit
  | nanosecond | microsecond | millisecond | second | minute | hour | day | week | month | year
  deriving DecidableEq, Repr

/-- The names of each unit. -/
def Unit.names : List (String × Unit) := [
  ("nanos", .nanosecond), ("nsec", .nanosecond), ("ns", .nanosecond),
  ("usec", .microsecond), ("us", .microsecond), ("µs", .microsecond),
  ("millis", .millisecond), ("msec", .millisecond), ("ms", .millisecond),
  ("seconds", .second), ("second", .second), ("secs", .second), ("sec", .second), ("s", .second),
  ("minutes", .minute), ("minute", .minute), ("mins", .minute), ("min", .minute), ("m", .minute),
  ("hours", .hour), ("hour", .hour), ("hrs", .hour), ("hr", .hour), ("h", .hour),
  ("days", .day), ("day", .day), ("d", .day),
  ("weeks", .week), ("week", .week), ("wks", .week), ("wk", .week), ("w", .week),
  ("months", .month), ("month", .month), ("M", .month),
  ("years", .year), ("year", .year), ("yrs", .year), ("yr", .year), ("y", .year)]

/-- The unit of a name. -/
def Unit.ofName? (name : List Char) : Option Unit := Unit.names.lookup (String.ofList name)

/-- What a unit is a multiple of: nanoseconds up to a thousandth of a second, else seconds. -/
structure Scale where
  seconds : Nat
  nanos : Nat

/-- How many seconds or nanoseconds one of a unit is; a year is 365.25 days and a month 30.44. -/
def Unit.scale : Unit → Scale
  | .nanosecond => ⟨0, 1⟩
  | .microsecond => ⟨0, 1000⟩
  | .millisecond => ⟨0, 1000000⟩
  | .second => ⟨1, 0⟩
  | .minute => ⟨60, 0⟩
  | .hour => ⟨3600, 0⟩
  | .day => ⟨86400, 0⟩
  | .week => ⟨604800, 0⟩
  | .month => ⟨2630016, 0⟩
  | .year => ⟨31557600, 0⟩

/-- What a fraction of a unit is counted in: whole nanoseconds up to the minute and whole seconds
above; a nanosecond has no fraction. -/
def Unit.fractionScale? : Unit → Option Scale
  | .nanosecond => none
  | .second => some ⟨0, 1000000000⟩
  | .minute => some ⟨0, 60000000000⟩
  | u => some u.scale

/-- A number that must stay below the limit. -/
def bounded (n : Nat) : Option Nat := if n < limit then some n else none

/-- A multiple of a scale, where nothing passes the limit. -/
def Scale.times? (s : Scale) (n : Nat) : Option Scale := do
  return ⟨← bounded (s.seconds * n), ← bounded (s.nanos * n)⟩

/-- A scale divided exactly. -/
def Scale.div? (s : Scale) (d : Nat) : Option Scale :=
  if s.seconds % d = 0 ∧ s.nanos % d = 0 then some ⟨s.seconds / d, s.nanos / d⟩ else none

/-- Adds to a span, where nothing passes the limit. -/
def add? (d : Duration) (s : Scale) : Option Duration := do
  let nanos ← bounded (d.subsecond + s.nanos)
  let carried ← if nanos > 1000000000 then bounded (s.seconds + nanos / 1000000000) else some s.seconds
  let seconds ← bounded (d.seconds + carried)
  return seconds * 1000000000 + (if nanos > 1000000000 then nanos % 1000000000 else nanos)

/-- A fraction below one, by its digits. -/
structure Fraction where
  numerator : Nat
  denominator : Nat

/-- Adds a number of a unit, with an optional fraction, to a span. -/
def addUnits? (d : Duration) (n : Nat) (fraction : Option Fraction) (unit : Unit) :
    Option Duration := do
  let d ← d.add? (← unit.scale.times? n)
  match fraction with
  | none => return d
  | some f => d.add? (← (← (← unit.fractionScale?).times? f.numerator).div? f.denominator)

/-- The digit of a decimal digit character. -/
def digit (c : Char) : Nat := c.toNat - 48

/-- Whether a character can be part of the name of a unit. -/
def isUnitLetter (c : Char) : Bool := c.isAlpha || c == 'µ'

/-- The first digit behind blanks, with what follows it. Nothing but blanks gives `none` inside. -/
def firstDigit : List Char → Option (Option (Nat × List Char))
  | [] => some none
  | c :: cs =>
    if c.isDigit then some (some (digit c, cs))
    else if Text.isBlank c then firstDigit cs
    else none

/-- Continues a whole number through digits and blanks. -/
def whole (n : Nat) : List Char → Option (Nat × List Char)
  | [] => some (n, [])
  | c :: cs =>
    if c.isDigit then do whole (← bounded (n * 10 + digit c)) cs
    else if Text.isBlank c then whole n cs
    else some (n, c :: cs)

/-- Continues a fraction through digits and blanks. -/
def fractionDigits (f : Fraction) : List Char → Option (Fraction × List Char)
  | [] => some (f, [])
  | c :: cs =>
    if c.isDigit then do
      let denominator ← bounded (f.denominator * 10)
      let numerator ← bounded (f.numerator * 10 + digit c)
      fractionDigits ⟨numerator, denominator⟩ cs
    else if Text.isBlank c then fractionDigits f cs
    else some (f, c :: cs)

/-- The fraction behind a point, if one stands there; it has a digit. -/
def fraction? : List Char → Option (Option Fraction × List Char)
  | '.' :: cs => do
    let (f, rest) ← fractionDigits ⟨0, 1⟩ cs
    if f.denominator = 1 then none else return (some f, rest)
  | cs => some (none, cs)

/-- Reads groups of number and unit, the first of which starts with the digit `n`; `fuel` bounds
their number. -/
def groups (d : Duration) (n : Nat) (cs : List Char) : (fuel : Nat) → Option Duration
  | 0 => none
  | fuel + 1 => do
    let (n, rest) ← whole n cs
    let (fraction, rest) ← fraction? rest
    let unit ← Unit.ofName? (rest.takeWhile isUnitLetter)
    let d ← d.addUnits? n fraction unit
    match rest.dropWhile isUnitLetter with
    | [] => return d
    | c :: rest =>
      if c.isDigit then groups d (digit c) rest fuel
      else if Text.isBlank c then
        match ← firstDigit rest with
        | none => return d
        | some (n, rest) => groups d n rest fuel
      else none

/-- The span that a text stands for; a bare zero needs no unit. -/
def parse? (text : List Char) : Option Duration :=
  if text = ['0'] then some 0
  else do
    match ← firstDigit text with
    | none => none
    | some (n, rest) => groups 0 n rest text.length

/-- A number of a unit that is spelled out, with its plural, unless there are none. -/
def plural (n : Nat) (name : String) : List String :=
  if n = 0 then [] else if n = 1 then [s!"{n}{name}"] else [s!"{n}{name}s"]

/-- A number of a unit that is abbreviated, unless there are none. -/
def abbreviated (n : Nat) (name : String) : List String :=
  if n = 0 then [] else [s!"{n}{name}"]

/-- The text of a span, from years down to nanoseconds without the units that are zero. -/
def format (d : Duration) : String :=
  if d = 0 then "0s"
  else
    let s := d.seconds
    let ofYear := s % 31557600
    let ofMonth := ofYear % 2630016
    let ofDay := ofMonth % 86400
    " ".intercalate (
      plural (s / 31557600) "year" ++ plural (ofYear / 2630016) "month" ++
      plural (ofMonth / 86400) "day" ++ abbreviated (ofDay / 3600) "h" ++
      abbreviated (ofDay % 3600 / 60) "m" ++ abbreviated (ofDay % 60) "s" ++
      abbreviated (d.subsecond / 1000000) "ms" ++
      abbreviated (d.subsecond / 1000 % 1000) "us" ++
      abbreviated (d.subsecond % 1000) "ns")

end Duration

end Gatehouse
