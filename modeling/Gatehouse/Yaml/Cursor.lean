import Gatehouse.Json.Token
import Gatehouse.Yaml.Scalar

/-!
# Reading YAML scalars

A cursor is a place in a text with its column. The readers here take what stands between two tokens,
and scalars: plain ones, which may go on over several lines, and those in quotes. A line break
within a scalar counts as a space, and each further one as itself.
-/

namespace Gatehouse.Yaml

/-- A place in a text. -/
structure Cursor where
  column : Nat
  rest : List Char
  deriving Inhabited

/-- Whether a character is a space or a tab. -/
def isBlank (c : Char) : Bool := c == ' ' || c == '\t'

/-- Whether a text is at a blank, at the end of a line or at its own end. -/
def atBlank : List Char → Bool
  | [] => true
  | c :: _ => isBlank c || c == '\n'

/-- Whether a character ends or separates the items of a collection in brackets. -/
def isFlowMark (c : Char) : Bool :=
  c == ',' || c == '[' || c == ']' || c == '\x7b' || c == '\x7d'

/-- The place behind characters none of which is a line break. -/
def Cursor.skip (c : Cursor) (n : Nat) : Cursor := ⟨c.column + n, c.rest.drop n⟩

/-- Whether a text begins with an item of a list in block style. -/
def atItem : List Char → Bool
  | '-' :: rest => atBlank rest
  | _ => false

/-! ## Gaps -/

/-- Skips blanks, comments and line ends, and tells whether a line has ended. Tabs are blanks up to
the end of the line, and behind it only within brackets. -/
def skipGap (flow : Bool) : (tabs comment crossed : Bool) → (column : Nat) → List Char → Bool × Cursor
  | _, _, crossed, column, [] => (crossed, ⟨column, []⟩)
  | tabs, comment, crossed, column, c :: cs =>
    if c = '\n' then skipGap flow flow false true 0 cs
    else if comment then skipGap flow tabs true crossed (column + 1) cs
    else if c = ' ' ∨ (tabs ∧ c = '\t') then skipGap flow tabs false crossed (column + 1) cs
    else if c = '#' then skipGap flow tabs true crossed (column + 1) cs
    else (crossed, ⟨column, c :: cs⟩)

/-- The next token of a collection in block style, and whether it is on another line. -/
def Cursor.gap (c : Cursor) (tabs : Bool) : Bool × Cursor :=
  skipGap false tabs false false c.column c.rest

/-- The next token within brackets. -/
def Cursor.flowGap (c : Cursor) : Cursor := (skipGap true true false false c.column c.rest).2

/-- The next token, which has to be on another line, or the end. -/
def Cursor.finishLine? (c : Cursor) : Option Cursor :=
  match c.gap true with
  | (crossed, next) => if crossed || next.rest.isEmpty then some next else none

/-! ## Folded line breaks -/

/-- The blanks at the front of a text, up to a line break. -/
def blanks : List Char → List Char × List Char
  | c :: cs => if isBlank c then let (bs, rest) := blanks cs; (c :: bs, rest) else ([], c :: cs)
  | [] => ([], [])

/-- How many lines end before the next character that is no blank, with the column of it. -/
def breaks : (count column : Nat) → List Char → Nat × Cursor
  | count, _, '\n' :: cs => breaks (count + 1) 0 cs
  | count, column, c :: cs =>
    if isBlank c then breaks count (column + 1) cs else (count, ⟨column, c :: cs⟩)
  | count, column, [] => (count, ⟨column, []⟩)

/-- What some line breaks in a row count as. -/
def folded : Nat → List Char
  | 0 => []
  | 1 => [' ']
  | n + 2 => List.replicate (n + 1) '\n'

/-- What the blanks and line breaks at a place count as within a scalar, and whether a line ends. -/
def Cursor.fold (c : Cursor) : List Char × Bool × Cursor :=
  match breaks 0 c.column c.rest with
  | (0, next) => ((blanks c.rest).1, false, next)
  | (n + 1, next) => (folded (n + 1), true, next)

/-! ## Plain scalars -/

/-- A run of characters of a plain scalar that are no blanks. -/
def word? (flow : Bool) : List Char → Option (List Char × List Char)
  | [] => some ([], [])
  | c :: cs =>
    if isBlank c || c == '\n' || (flow && isFlowMark c) then some ([], c :: cs)
    else if c == ':' && atBlank cs then some ([], c :: cs)
    else if c == ':' && flow && cs.head?.any (fun d => isFlowMark d || d == '?') then none
    else (word? flow cs).map fun (w, rest) => (c :: w, rest)

/-- Whether a plain scalar may begin so. -/
def mayStartPlain (flow : Bool) : List Char → Bool
  | [] => false
  | c :: cs =>
    if c == '-' then !atBlank cs
    else if c == '?' || c == ':' then !flow && !atBlank cs
    else !(isBlank c || c == '\n' || isFlowMark c ||
      ['#', '&', '*', '!', '|', '>', '\'', '"', '%', '@', '\u0060'].contains c)

/-- Reads on behind a word of a plain scalar; each further line begins at column `indent` at
least, except within brackets. -/
def plainTail (flow : Bool) (indent : Nat) : (fuel : Nat) → Cursor → Option (List Char × Cursor)
  | 0, c => some ([], c)
  | fuel + 1, c => do
    let (gap, crossed, next) := c.fold
    if gap.isEmpty || next.rest.head? == some '#' then return ([], c)
    if !flow && crossed && next.column < indent then return ([], c)
    let (w, rest) ← word? flow next.rest
    if w.isEmpty then return ([], c)
    let (more, stop) ← plainTail flow indent fuel ⟨next.column + w.length, rest⟩
    return (gap ++ w ++ more, stop)

/-- Reads a plain scalar. -/
def plain? (flow : Bool) (indent : Nat) (c : Cursor) : Option (List Char × Cursor) := do
  if !mayStartPlain flow c.rest then none
  let (w, rest) ← word? flow c.rest
  let (more, stop) ← plainTail flow indent c.rest.length ⟨c.column + w.length, rest⟩
  return (w ++ more, stop)

/-! ## Quoted scalars -/

/-- The characters of escapes of one letter. -/
def escapes : List (Char × Char) := [
  ('0', '\x00'), ('a', '\x07'), ('b', '\x08'), ('t', '\t'), ('\t', '\t'), ('n', '\n'),
  ('v', '\x0B'), ('f', '\x0C'), ('r', '\r'), ('e', '\x1B'), (' ', ' '), ('"', '"'), ('/', '/'),
  ('\\', '\\'), ('N', '\u0085'), ('_', '\u00A0'), ('L', '\u2028'), ('P', '\u2029')]

/-- The character of a code in hexadecimal digits. -/
def coded? (digits : List Char) : Option Char := do
  let n ← nat? 16 digits
  if n < 0xD800 ∨ (0xE000 ≤ n ∧ n < 0x110000) then some (Char.ofNat n) else none

/-- The character that an escape stands for, read behind its backslash, and how long it is. -/
def escape? : List Char → Option (Char × Nat)
  | 'x' :: cs => (coded? (cs.take 2)).bind fun c => if 2 ≤ cs.length then some (c, 3) else none
  | 'u' :: cs => (coded? (cs.take 4)).bind fun c => if 4 ≤ cs.length then some (c, 5) else none
  | 'U' :: cs => (coded? (cs.take 8)).bind fun c => if 8 ≤ cs.length then some (c, 9) else none
  | c :: _ => (escapes.lookup c).map fun d => (d, 1)
  | [] => none

/-- Reads a scalar in double quotes, from behind the first. -/
def doubleQuoted? : (fuel : Nat) → Cursor → Option (List Char × Cursor)
  | 0, _ => none
  | fuel + 1, c =>
    match c.rest with
    | [] => none
    | '"' :: rest => some ([], ⟨c.column + 1, rest⟩)
    | '\\' :: '\n' :: rest =>
      let (n, next) := breaks 0 0 rest
      (doubleQuoted? fuel next).map fun (cs, stop) => (List.replicate n '\n' ++ cs, stop)
    | '\\' :: rest => do
      let (d, n) ← escape? rest
      let (cs, stop) ← doubleQuoted? fuel (c.skip (n + 1))
      return (d :: cs, stop)
    | d :: _ =>
      if isBlank d || d == '\n' then
        let (gap, _, next) := c.fold
        (doubleQuoted? fuel next).map fun (cs, stop) => (gap ++ cs, stop)
      else (doubleQuoted? fuel (c.skip 1)).map fun (cs, stop) => (d :: cs, stop)

/-- Reads a scalar in single quotes, from behind the first. -/
def singleQuoted? : (fuel : Nat) → Cursor → Option (List Char × Cursor)
  | 0, _ => none
  | fuel + 1, c =>
    match c.rest with
    | [] => none
    | '\'' :: '\'' :: _ => (singleQuoted? fuel (c.skip 2)).map fun (cs, stop) => ('\'' :: cs, stop)
    | '\'' :: rest => some ([], ⟨c.column + 1, rest⟩)
    | d :: _ =>
      if isBlank d || d == '\n' then
        let (gap, _, next) := c.fold
        (singleQuoted? fuel next).map fun (cs, stop) => (gap ++ cs, stop)
      else (singleQuoted? fuel (c.skip 1)).map fun (cs, stop) => (d :: cs, stop)

end Gatehouse.Yaml
