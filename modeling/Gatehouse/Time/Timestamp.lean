import Gatehouse.Time.Duration

/-!
# Timestamps

An instant of civil time in UTC, read from RFC 3339 text. Order is by second and then by
nanosecond; in a leap second the nanoseconds of the second before count on.
-/

namespace Gatehouse

/-- An instant: seconds since 1970 and nanoseconds into the second. In a leap second the
nanoseconds run from one to two thousand million. -/
structure Timestamp where
  seconds : Int
  nanos : Nat
  deriving DecidableEq, Repr, Inhabited

namespace Timestamp

/-- Whether one instant is before another. -/
def before (a b : Timestamp) : Bool :=
  a.seconds < b.seconds || (a.seconds == b.seconds && a.nanos < b.nanos)

/-- The largest duration that civil time can be moved by. -/
def maxShift : Duration := 9223372036854775807 * 1000000

/-- The instant a duration later; one that is too long does not move it. A leap second ends where
the addition leaves it. -/
def add (t : Timestamp) (d : Duration) : Timestamp :=
  if maxShift < d then t
  else if 1000000000 ≤ t.nanos ∧ d.seconds = 0 ∧ t.nanos + d.subsecond < 2000000000 then
    { t with nanos := t.nanos + d.subsecond }
  else
    let nanos := t.nanos % 1000000000 + d.subsecond
    ⟨t.seconds + d.seconds + nanos / 1000000000, nanos % 1000000000⟩

/-- Whether a year has a 29th of February. -/
def isLeapYear (year : Nat) : Bool := (year % 4 == 0 && year % 100 != 0) || year % 400 == 0

/-- The days of a month. -/
def daysInMonth (year month : Nat) : Nat :=
  if month = 2 then (if isLeapYear year then 29 else 28)
  else if month = 4 ∨ month = 6 ∨ month = 9 ∨ month = 11 then 30
  else 31

/-- The days from 1970-01-01 to a date. -/
def daysFromEpoch (year month day : Nat) : Int :=
  let y : Int := (if month ≤ 2 then (year : Int) - 1 else year)
  let shifted := (month + 9) % 12
  y * 365 + y / 4 - y / 100 + y / 400 + ((153 * shifted + 2) / 5 : Nat) + day - 719469

/-- The number of exactly `count` digits at the front. -/
def digits (count value : Nat) (cs : List Char) : Option (Nat × List Char) :=
  match count, cs with
  | 0, cs => some (value, cs)
  | count + 1, c :: cs =>
    if c.isDigit then digits count (value * 10 + (c.toNat - 48)) cs else none
  | _ + 1, [] => none

/-- What follows a character. -/
def mark (expected : Char) : List Char → Option (List Char)
  | c :: cs => if c = expected then some cs else none
  | [] => none

/-- The nanoseconds of a decimal fraction, of which nine digits count. -/
def fraction : List Char → Option (Nat × List Char)
  | '.' :: cs =>
    match cs.takeWhile Char.isDigit with
    | [] => none
    | ds =>
      let nine := (ds.take 9).foldl (fun n c => n * 10 + (c.toNat - 48)) 0
      some (nine * Nat.pow 10 (9 - min 9 ds.length), cs.dropWhile Char.isDigit)
  | cs => some (0, cs)

/-- The seconds east of Greenwich that a text names, with nothing behind. -/
def offset : List Char → Option Int
  | ['Z'] => some 0
  | ['z'] => some 0
  | sign :: cs => do
    let factor : Int ←
      if sign = '+' then some 1 else if sign = '-' ∨ sign = '\u2212' then some (-1) else none
    let (hours, cs) ← digits 2 0 cs
    let cs ← mark ':' cs
    let (minutes, cs) ← digits 2 0 cs
    if hours ≤ 23 ∧ minutes ≤ 59 ∧ cs.isEmpty then
      return factor * (hours * 3600 + minutes * 60 : Nat)
    else none
  | [] => none

/-- The instant that an RFC 3339 text names. -/
def parse? (text : List Char) : Option Timestamp := do
  let (year, cs) ← digits 4 0 text
  let (month, cs) ← digits 2 0 (← mark '-' cs)
  let (day, cs) ← digits 2 0 (← mark '-' cs)
  let cs ← match cs with
    | c :: cs => if c = 'T' ∨ c = 't' ∨ c = ' ' then some cs else none
    | [] => none
  let (hour, cs) ← digits 2 0 cs
  let (minute, cs) ← digits 2 0 (← mark ':' cs)
  let (second, cs) ← digits 2 0 (← mark ':' cs)
  let (nanos, cs) ← fraction cs
  let east ← offset cs
  if 1 ≤ month ∧ month ≤ 12 ∧ 1 ≤ day ∧ day ≤ daysInMonth year month ∧
      hour ≤ 23 ∧ minute ≤ 59 ∧ second ≤ 60 then
    let leap := second = 60
    let ofDay := hour * 3600 + minute * 60 + (if leap then 59 else second)
    return ⟨daysFromEpoch year month day * 86400 + ofDay - east,
      if leap then nanos + 1000000000 else nanos⟩
  else none

end Timestamp

end Gatehouse
