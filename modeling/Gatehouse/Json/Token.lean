import Gatehouse.Double

/-!
# JSON tokens

`Json.tokens?` cuts a JSON text into tokens. A number keeps its parts as written and a string with
an unpaired surrogate escape keeps no text, because both are an error only for a reader that looks
at them.
-/

namespace Gatehouse.Json

/-- A number as it is written. -/
structure Numeral where
  negative : Bool
  whole : List Char
  fraction : List Char
  /-- The sign and the digits of the exponent, if there is one. -/
  exponent : Option (Bool × List Char)
  deriving DecidableEq, Repr, Inhabited

/-- A lexical unit of a JSON text. -/
inductive Token
  /-- One of `[`, `]`, `{`, `}`, `,` and `:`. -/
  | mark (c : Char)
  | null
  | bool (b : Bool)
  | number (n : Numeral)
  | string (s : Option String)
  deriving DecidableEq, Repr, Inhabited

/-- Blanks of JSON. -/
def isBlank (c : Char) : Bool := c == ' ' || c == '\n' || c == '\t' || c == '\r'

/-- The characters that stand for themselves as tokens. -/
def isMark (c : Char) : Bool :=
  c == '[' || c == ']' || c == '\x7b' || c == '\x7d' || c == ',' || c == ':'

/-- The value of a hexadecimal digit. -/
def hexValue? (c : Char) : Option Nat :=
  if '0' ≤ c && c ≤ '9' then some (c.toNat - 48)
  else if 'a' ≤ c && c ≤ 'f' then some (c.toNat - 87)
  else if 'A' ≤ c && c ≤ 'F' then some (c.toNat - 55)
  else none

/-- The UTF-16 unit that four hexadecimal digits stand for. -/
def hexUnit? (a b c d : Char) : Option Nat := do
  return (((← hexValue? a) * 16 + (← hexValue? b)) * 16 + (← hexValue? c)) * 16 + (← hexValue? d)

/-- The character of a one-letter escape. -/
def shortEscape? : Char → Option Char
  | '"' => some '"'
  | '\\' => some '\\'
  | '/' => some '/'
  | 'b' => some '\x08'
  | 'f' => some '\x0C'
  | 'n' => some '\n'
  | 'r' => some '\r'
  | 't' => some '\t'
  | _ => none

/-- Puts a character in front of a string that is still readable. -/
def consText (c : Char) : Option (List Char) × List Char → Option (List Char) × List Char
  | (text, rest) => (text.map (c :: ·), rest)

/-- The character that a first UTF-16 unit makes with the escape at the front of a text. -/
def pairedScalar? (unit : Nat) : List Char → Option Char
  | '\\' :: 'u' :: a :: b :: c :: d :: _ => do
    let low ← hexUnit? a b c d
    if 0xD800 ≤ unit ∧ unit < 0xDC00 ∧ 0xDC00 ≤ low ∧ low ≤ 0xDFFF then
      some (Char.ofNat (0x10000 + (unit - 0xD800) * 0x400 + (low - 0xDC00)))
    else none
  | _ => none

/-- Reads a string from behind its opening quote to behind its closing one. -/
def stringBody : List Char → Option (Option (List Char) × List Char)
  | [] => none
  | '"' :: rest => some (some [], rest)
  | '\\' :: 'u' :: a :: b :: c :: d :: rest => do
    let unit ← hexUnit? a b c d
    if unit < 0xD800 ∨ 0xDFFF < unit then (stringBody rest).map (consText (Char.ofNat unit))
    else match pairedScalar? unit rest with
      | some scalar => (stringBody (rest.drop 6)).map (consText scalar)
      | none => (stringBody rest).map fun (_, left) => (none, left)
  | '\\' :: e :: rest => do
    let c ← shortEscape? e
    (stringBody rest).map (consText c)
  | c :: rest => if c.toNat < 0x20 then none else (stringBody rest).map (consText c)
termination_by cs => cs.length
decreasing_by all_goals simp; try omega

/-- Reads the digits at the front. -/
def digits (cs : List Char) : List Char × List Char := cs.span Char.isDigit

/-- Reads the exponent of a number, if one follows. -/
def exponentPart : List Char → Option (Option (Bool × List Char) × List Char)
  | e :: rest =>
    if e == 'e' || e == 'E' then
      let (negative, rest) := match rest with
        | '-' :: r => (true, r)
        | '+' :: r => (false, r)
        | r => (false, r)
      match digits rest with
      | ([], _) => none
      | (ds, rest) => some (some (negative, ds), rest)
    else some (none, e :: rest)
  | [] => some (none, [])

/-- Reads the fraction of a number, if one follows. -/
def fractionPart : List Char → Option (List Char × List Char)
  | '.' :: rest => match digits rest with
    | ([], _) => none
    | (ds, rest) => some (ds, rest)
  | rest => some ([], rest)

/-- Reads the whole part of a number, which has no superfluous zero in front. -/
def wholePart : List Char → Option (List Char × List Char)
  | '0' :: rest => some (['0'], rest)
  | cs => match digits cs with
    | ([], _) => none
    | (ds, rest) => some (ds, rest)

/-- Reads a number. -/
def numeral (cs : List Char) : Option (Numeral × List Char) := do
  let (negative, cs) := match cs with
    | '-' :: rest => (true, rest)
    | cs => (false, cs)
  let (whole, cs) ← wholePart cs
  let (fraction, cs) ← fractionPart cs
  let (exponent, cs) ← exponentPart cs
  return (⟨negative, whole, fraction, exponent⟩, cs)

/-- Reads one token from a text that starts with none of the blanks. -/
def token : List Char → Option (Token × List Char)
  | 'n' :: 'u' :: 'l' :: 'l' :: rest => some (.null, rest)
  | 't' :: 'r' :: 'u' :: 'e' :: rest => some (.bool true, rest)
  | 'f' :: 'a' :: 'l' :: 's' :: 'e' :: rest => some (.bool false, rest)
  | '"' :: rest => (stringBody rest).map fun (text, left) => (.string (text.map String.ofList), left)
  | c :: rest =>
    if isMark c then some (.mark c, rest)
    else (numeral (c :: rest)).map fun (n, left) => (.number n, left)
  | [] => none

/-- Cuts a text into tokens; `fuel` bounds their number and the number of blanks. -/
def tokensFrom : (fuel : Nat) → List Char → Option (List Token)
  | _, [] => some []
  | 0, _ => none
  | fuel + 1, c :: cs =>
    if isBlank c then tokensFrom fuel cs
    else do
      let (t, rest) ← token (c :: cs)
      return t :: (← tokensFrom fuel rest)

/-- The tokens of a text, if it is made of tokens and blanks. -/
def tokens? (text : List Char) : Option (List Token) := tokensFrom text.length text

end Gatehouse.Json
