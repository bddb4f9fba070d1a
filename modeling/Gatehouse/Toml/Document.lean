import Gatehouse.Toml.Table
import Gatehouse.Yaml.Scalar

/-!
# TOML documents

`Toml.parse?` reads the statements of a text and the values in them. Dates and times are not known.
-/

namespace Gatehouse.Toml

open Config (Node Scalar)
open Yaml (nat? scaled exponent?)

/-! ## Blanks -/

/-- Skips spaces and tabs. -/
def skipBlanks (cs : List Char) : List Char := cs.dropWhile fun c => c == ' ' || c == '\t'

/-- Whether a character may stand in a comment or a string as it is. -/
def isPrintable (c : Char) : Bool := c == '\t' || (0x20 ≤ c.toNat && c.toNat != 0x7F)

/-- Skips a comment, if there is one. -/
def skipComment : List Char → List Char
  | '#' :: rest => rest.dropWhile isPrintable
  | cs => cs

/-- Skips the end of a line. -/
def lineEnd? : List Char → Option (List Char)
  | '\n' :: rest => some rest
  | '\r' :: '\n' :: rest => some rest
  | _ => none

/-- Skips blanks, comments and line ends. -/
def skipLines : (fuel : Nat) → List Char → List Char
  | 0, cs => cs
  | fuel + 1, cs =>
    let rest := skipComment (skipBlanks cs)
    match lineEnd? rest with
    | some rest => skipLines fuel rest
    | none => rest

/-- Skips the rest of a line that has nothing more but a comment. -/
def finishLine? (cs : List Char) : Option (List Char) :=
  match skipComment (skipBlanks cs) with
  | [] => some []
  | cs => lineEnd? cs

/-! ## Strings -/

/-- The character that an escape stands for, read behind its backslash, and what follows. -/
def escape? : List Char → Option (Char × List Char)
  | 'b' :: cs => some ('\x08', cs)
  | 't' :: cs => some ('\t', cs)
  | 'n' :: cs => some ('\n', cs)
  | 'f' :: cs => some ('\x0C', cs)
  | 'r' :: cs => some ('\r', cs)
  | '"' :: cs => some ('"', cs)
  | '\\' :: cs => some ('\\', cs)
  | 'u' :: cs => coded? 4 cs
  | 'U' :: cs => coded? 8 cs
  | _ => none
where
  /-- The character of a code of so many hexadecimal digits. -/
  coded? (count : Nat) (cs : List Char) : Option (Char × List Char) := do
    let n ← nat? 16 (cs.take count)
    if cs.length < count ∨ 0x110000 ≤ n ∨ (0xD800 ≤ n ∧ n < 0xE000) then none
    else some (Char.ofNat n, cs.drop count)

/-- Reads a string on one line, from behind its first quote. -/
def lineString? (quote : Char) : (fuel : Nat) → List Char → Option (List Char × List Char)
  | 0, _ => none
  | _, [] => none
  | fuel + 1, c :: cs => do
    if c = quote then return ([], cs)
    let (d, rest) ← if c = '\\' ∧ quote = '"' then escape? cs
      else if isPrintable c then some (c, cs) else none
    let (ds, rest) ← lineString? quote fuel rest
    return (d :: ds, rest)

/-- Skips the blanks and line ends behind a backslash at the end of a line. -/
def joinLines? (cs : List Char) : Option (List Char) := do
  let rest ← lineEnd? (skipBlanks cs)
  return rest.dropWhile fun c => c == ' ' || c == '\t' || c == '\n' || c == '\r'

/-- Reads a string over several lines, from behind its first three quotes. One or two quotes in
front of the last three belong to it. -/
def blockString? (quote : Char) : (fuel : Nat) → List Char → Option (List Char × List Char)
  | 0, _ => none
  | _, [] => none
  | fuel + 1, c :: cs => do
    if c = quote ∧ (c :: cs).take 3 = [quote, quote, quote] then
      let quotes := ((c :: cs).takeWhile (· == quote)).length
      if 5 < quotes then none
      else return (List.replicate (quotes - 3) quote, (c :: cs).drop quotes)
    else
      let (ds, rest) ←
        if c = '\\' ∧ quote = '"' then
          match joinLines? cs with
          | some rest => some ([], rest)
          | none => (escape? cs).map fun (d, rest) => ([d], rest)
        else match lineEnd? (c :: cs) with
          | some rest => some (['\n'], rest)
          | none => if isPrintable c then some ([c], cs) else none
      let (es, rest) ← blockString? quote fuel rest
      return (ds ++ es, rest)

/-- Reads a string in either style of quotes. -/
def string? (cs : List Char) : Option (List Char × List Char) :=
  match cs with
  | '"' :: '"' :: '"' :: rest => blockString? '"' cs.length ((lineEnd? rest).getD rest)
  | '\'' :: '\'' :: '\'' :: rest => blockString? '\'' cs.length ((lineEnd? rest).getD rest)
  | '"' :: rest => lineString? '"' cs.length rest
  | '\'' :: rest => lineString? '\'' cs.length rest
  | _ => none

/-! ## Keys -/

/-- Whether a character may stand in a key without quotes. -/
def isKeyChar (c : Char) : Bool := c.isAlphanum || c == '_' || c == '-'

/-- Reads one part of a key. -/
def keyPart? (cs : List Char) : Option (String × List Char) :=
  match cs with
  | '"' :: rest => (lineString? '"' cs.length rest).map fun (k, rest) => (String.ofList k, rest)
  | '\'' :: rest => (lineString? '\'' cs.length rest).map fun (k, rest) => (String.ofList k, rest)
  | _ =>
    let k := cs.takeWhile isKeyChar
    if k.isEmpty then none else some (String.ofList k, cs.drop k.length)

/-- Reads a key, which may have dots. -/
def key? : (fuel : Nat) → List Char → Option (List String × List Char)
  | 0, _ => none
  | fuel + 1, cs => do
    let (k, rest) ← keyPart? (skipBlanks cs)
    match skipBlanks rest with
    | '.' :: rest =>
      let (ks, rest) ← key? fuel rest
      return (k :: ks, rest)
    | rest => return ([k], rest)

/-! ## Numbers -/

/-- Drops the underscores between digits; there is one at most between two of them. -/
def plainDigits? (isDigit : Char → Bool) : List Char → Option (List Char)
  | [] => none
  | [c] => if isDigit c then some [c] else none
  | c :: '_' :: cs => if isDigit c then (plainDigits? isDigit cs).map (c :: ·) else none
  | c :: cs => if isDigit c then (plainDigits? isDigit cs).map (c :: ·) else none

/-- Digits without a superfluous zero in front. -/
def wholeDigits? (cs : List Char) : Option (List Char) :=
  match plainDigits? Char.isDigit cs with
  | some ['0'] => some ['0']
  | some ('0' :: _) => none
  | digits => digits

/-- The integer that a word is. -/
def int? (cs : List Char) : Option Int := do
  let based (base : Nat) (cs : List Char) : Option Int :=
    ((plainDigits? (fun c => (Yaml.digit? base c).isSome) cs).bind (nat? base)).map Int.ofNat
  let n ← match cs with
    | '0' :: 'x' :: rest => based 16 rest
    | '0' :: 'o' :: rest => based 8 rest
    | '0' :: 'b' :: rest => based 2 rest
    | '-' :: rest => ((wholeDigits? rest).bind (nat? 10)).map fun n => -(n : Int)
    | '+' :: rest => ((wholeDigits? rest).bind (nat? 10)).map Int.ofNat
    | cs => ((wholeDigits? cs).bind (nat? 10)).map Int.ofNat
  if -Int.pow 2 63 ≤ n ∧ n < Int.pow 2 63 then some n else none

/-- The double that a word without a sign is. -/
def magnitude? (negative : Bool) (cs : List Char) : Option Double :=
  match cs with
  | ['i', 'n', 'f'] => some (.ofFloat (if negative then -1.0 / 0.0 else 1.0 / 0.0))
  | ['n', 'a', 'n'] => some ⟨if negative then 0xFFF8000000000000 else 0x7FF8000000000000⟩
  | _ => do
    let mantissa := cs.takeWhile fun c => c != 'e' && c != 'E'
    let exponent ← match cs.drop mantissa.length with
      | [] => some 0
      | _ :: '-' :: rest => (plainDigits? Char.isDigit rest).bind fun ds => exponent? ('-' :: ds)
      | _ :: '+' :: rest => (plainDigits? Char.isDigit rest).bind exponent?
      | _ :: rest => (plainDigits? Char.isDigit rest).bind exponent?
    let whole := mantissa.takeWhile (· != '.')
    let digits ← wholeDigits? whole
    let fraction ← match mantissa.drop whole.length with
      | [] => some []
      | _ :: rest => plainDigits? Char.isDigit rest
    return scaled negative (← nat? 10 (digits ++ fraction)) fraction.length exponent

/-- The double that a word is. -/
def double? : List Char → Option Double
  | '-' :: rest => magnitude? true rest
  | '+' :: rest => magnitude? false rest
  | cs => magnitude? false cs

/-- Reads a number or a truth value. -/
def word? (cs : List Char) : Option (Node × List Char) := do
  let word := cs.takeWhile fun c => isKeyChar c || c == '+' || c == '.' || c == ':'
  let rest := cs.drop word.length
  let scalar ←
    if word = ['t', 'r', 'u', 'e'] then some (Scalar.bool true)
    else if word = ['f', 'a', 'l', 's', 'e'] then some (.bool false)
    else match int? word with
      | some n => some (.int n)
      | none => (double? word).map .double
  return (.scalar scalar none, rest)

/-! ## Values -/

mutual

/-- Reads a value. -/
def value? : (fuel : Nat) → List Char → Option (Node × List Char)
  | 0, _ => none
  | fuel + 1, cs =>
    match cs with
    | '"' :: _ => (string? cs).map fun (s, rest) => (.ofText (String.ofList s), rest)
    | '\'' :: _ => (string? cs).map fun (s, rest) => (.ofText (String.ofList s), rest)
    | '[' :: rest =>
      (items? fuel (skipLines rest.length rest)).map fun (xs, rest) => (.sequence xs, rest)
    | '\x7b' :: rest =>
      match skipBlanks rest with
      | '\x7d' :: rest => some (.mapping [], rest)
      | rest => (inlineFields? fuel [] rest).map fun (xs, rest) => (.mapping (nodeFields xs), rest)
    | _ => word? cs

/-- Reads the items of a list, from the first one on. -/
def items? : (fuel : Nat) → List Char → Option (List Node × List Char)
  | 0, _ => none
  | _, ']' :: rest => some ([], rest)
  | fuel + 1, cs => do
    let (x, rest) ← value? fuel cs
    match skipLines rest.length rest with
    | ',' :: rest =>
      let (xs, rest) ← items? fuel (skipLines rest.length rest)
      return (x :: xs, rest)
    | ']' :: rest => return ([x], rest)
    | _ => none

/-- Reads the fields of a table in braces, one at least. -/
def inlineFields? : (fuel : Nat) → Fields → List Char → Option (Fields × List Char)
  | 0, _, _ => none
  | fuel + 1, fields, cs => do
    let (path, rest) ← key? cs.length cs
    match rest with
    | '=' :: rest =>
      let (x, rest) ← value? fuel (skipBlanks rest)
      let fields ← insert x path fields
      match skipBlanks rest with
      | ',' :: rest => inlineFields? fuel fields rest
      | '\x7d' :: rest => return (fields, rest)
      | _ => none
    | _ => none

end

/-! ## Statements -/

/-- Reads a header or a pair, to the next line. -/
def statement? (cs : List Char) : Option (Statement × List Char) :=
  match cs with
  | '[' :: '[' :: rest => do
    match ← key? cs.length rest with
    | (path, ']' :: ']' :: rest) => return (.listHeader path, ← finishLine? rest)
    | _ => none
  | '[' :: rest => do
    match ← key? cs.length rest with
    | (path, ']' :: rest) => return (.header path, ← finishLine? rest)
    | _ => none
  | _ => do
    match ← key? cs.length cs with
    | (path, '=' :: rest) =>
      let (x, rest) ← value? cs.length (skipBlanks rest)
      return (.pair path x, ← finishLine? rest)
    | _ => none

/-- Reads the statements of a text. -/
def statements? : (fuel : Nat) → List Char → Option (List Statement)
  | 0, _ => none
  | fuel + 1, cs =>
    match skipLines cs.length cs with
    | [] => some []
    | cs => do
      let (s, rest) ← statement? cs
      return s :: (← statements? fuel rest)

/-- The tree of a text. -/
def parse? (text : List Char) : Option Node := do
  let text := if text.head? == some '\uFEFF' then text.drop 1 else text
  let root ← run (← statements? (text.length + 1) text) [] []
  return .mapping (nodeFields root)

end Gatehouse.Toml
