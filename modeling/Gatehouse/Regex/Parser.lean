import Gatehouse.Bytes
import Gatehouse.Regex.Search
import Gatehouse.Text.Blank
import Gatehouse.Unicode.Folding
import Gatehouse.Unicode.Property

/-!
# The text of regular expressions

`Regex.ofText` reads an expression: literals, classes, groups, flags, repetitions and conditions on
the place. What is refused is bad grammar, or an expression that there is no room for.
-/

namespace Gatehouse.Regex

open Unicode (CharSet)

/-- Why a text is no regular expression. -/
inductive Fault
  | grammar
  | tooLarge
  deriving DecidableEq, Repr, Inhabited

/-- The wording of a fault. -/
def Fault.message : Fault → String
  | .grammar => "regex parse error"
  | .tooLarge => s!"Compiled regex exceeds size limit of {sizeLimit} bytes."

/-- The flags in force at a place of an expression. -/
structure Flags where
  ignoreCase : Bool := false
  multiLine : Bool := false
  dotAll : Bool := false
  swapGreed : Bool := false
  unicode : Bool := true
  crlf : Bool := false
  verbose : Bool := false
  deriving DecidableEq, Repr, Inhabited

/-- What is left to read, and the groups opened so far. -/
structure Input where
  rest : List Char
  groups : Nat := 0
  names : List (String × Nat) := []

/-- A reader of a part of an expression. -/
abbrev Reader := StateT Input Option

namespace Reader

/-- The next character. -/
def peek : Reader (Option Char) := return (← get).rest.head?

/-- Passes over so many characters. -/
def skip (n : Nat) : Reader Unit := modify fun i => { i with rest := i.rest.drop n }

/-- The next character, which there must be. -/
def next : Reader Char := do
  match (← get).rest with
  | c :: rest =>
    modify fun i => { i with rest }
    return c
  | [] => failure

/-- Passes over a text if it comes next. -/
def accept (text : String) : Reader Bool := do
  let expected := text.toList
  if (← get).rest.take expected.length == expected then
    skip expected.length
    return true
  else return false

/-- Passes over the characters that satisfy `p`. -/
def takeWhile (p : Char → Bool) : Reader (List Char) := do
  let i ← get
  set { i with rest := i.rest.dropWhile p }
  return i.rest.takeWhile p

/-- What follows blanks and comments; a comment runs from `#` to the end of the line. -/
def afterBlanks : (fuel : Nat) → List Char → List Char
  | 0, cs => cs
  | _ + 1, [] => []
  | fuel + 1, c :: cs =>
    if c == '#' then afterBlanks fuel ((cs.dropWhile (· != '\n')).drop 1)
    else if Text.isBlank c then afterBlanks fuel cs
    else c :: cs

/-- A text without the blanks and comments in front of it, where they do not count. -/
def unblanked (flags : Flags) (cs : List Char) : List Char :=
  if flags.verbose then afterBlanks cs.length cs else cs

/-- Passes over blanks and comments where they do not count. -/
def blanks (flags : Flags) : Reader Unit :=
  modify fun i => { i with rest := unblanked flags i.rest }

end Reader

open Reader

/-! ## Characters and classes -/

/-- Whether a character may stand behind a backslash for itself. -/
def isEscapable (c : Char) : Bool := c.toNat < 0x80 && !c.isAlphanum && c != '<' && c != '>'

/-- The value of a hexadecimal digit. -/
def hexValue? (c : Char) : Option Nat :=
  if c.toNat < 0x80 then (Bytes.hexDigit? (Bytes.ofChar c)).map UInt8.toNat else none

/-- The character of a number in hexadecimal digits. -/
def ofHex? (digits : List Char) : Option Char := do
  if digits.isEmpty then none
  else
    let n ← digits.foldlM (fun n c => do return n * 16 + (← hexValue? c)) 0
    if Nat.isValidChar n then some (Char.ofNat n) else none

/-- The character behind `\x`, `\u` or `\U`: so many digits, or any number in braces. -/
def hexEscape (digits : Nat) : Reader Char := do
  if ← accept "\x7b" then
    let ds ← takeWhile (· != '\x7d')
    let _ ← next
    ofHex? ds
  else
    let i ← get
    skip digits
    if i.rest.length < digits then failure else ofHex? (i.rest.take digits)

/-- The set with all cases of its characters, where case does not count. -/
def foldCase (flags : Flags) (s : CharSet) : CharSet :=
  if !flags.ignoreCase then s
  else if flags.unicode then Unicode.closure s
  else
    let upper := (s.inter (.ofList [(0x61, 0x7A)])).ranges.map fun (a, b) => (a - 32, b - 32)
    let lower := (s.inter (.ofList [(0x41, 0x5A)])).ranges.map fun (a, b) => (a + 32, b + 32)
    s.union (.ofList (upper ++ lower))

/-- The set or its complement. Without Unicode no set may reach beyond ASCII. -/
def complementIf (flags : Flags) (negated : Bool) (s : CharSet) : Option CharSet :=
  if !negated then some s
  else if flags.unicode then some s.complement
  else none

/-- The class of `d`, `s` or `w`. -/
def perlClass (flags : Flags) (c : Char) : CharSet :=
  if c == 'd' then
    if flags.unicode then Unicode.decimalDigits else .ofList [(0x30, 0x39)]
  else if c == 's' then
    if flags.unicode then Unicode.whiteSpace else .ofList [(0x09, 0x0D), (0x20, 0x20)]
  else if flags.unicode then Unicode.wordCharacters else asciiWord

/-- Splits a property at `!=`, `:` or `=`: whether it is denied, the name, and the value. -/
def splitProperty (text : List Char) : Bool × List Char × Option (List Char) :=
  let before := text.takeWhile fun c => !(c == '!' || c == ':' || c == '=')
  match text.drop before.length with
  | '!' :: '=' :: value => (true, before, some value)
  | ':' :: value => (false, before, some value)
  | '=' :: value => (false, before, some value)
  | _ => (false, text, none)

/-- The class behind `\p`: one letter, or a property in braces. -/
def unicodeClass (flags : Flags) (negated : Bool) : Reader CharSet := do
  if !flags.unicode then failure
  else
    let c ← next
    if c != '\x7b' then
      let s ← Unicode.property? [c] none
      complementIf flags negated (foldCase flags s)
    else
      let text ← takeWhile (· != '\x7d')
      let _ ← next
      let (inner, text) := match text with
        | '^' :: rest => (true, rest)
        | _ => (false, text)
      let (denied, name, value) := splitProperty text
      let s ← Unicode.property? name value
      complementIf flags ((negated != inner) != denied) (foldCase flags s)

/-- What a backslash makes of what follows it: a character, a class or a condition. -/
inductive Primitive
  | literal (c : Char)
  | set (s : CharSet)
  | look (l : Look)

/-- The condition on a word boundary that has a name. -/
def namedBoundary? (flags : Flags) : String → Option Look
  | "start" => some (.wordStart flags.unicode)
  | "end" => some (.wordEnd flags.unicode)
  | "start-half" => some (.wordStartHalf flags.unicode)
  | "end-half" => some (.wordEndHalf flags.unicode)
  | _ => none

/-- A condition on a word boundary, with its name in braces if it has one. -/
def boundary (flags : Flags) : Reader Look := do
  let i ← get
  match i.rest with
  | '\x7b' :: rest =>
    let inner := rest.dropWhile Text.isBlank
    match inner with
    | [] => failure
    | c :: _ =>
      if c.isAlpha || c == '-' then
        let name := inner.takeWhile fun c => c.isAlpha || c == '-'
        match (inner.drop name.length).dropWhile Text.isBlank with
        | '\x7d' :: rest =>
          set { i with rest }
          namedBoundary? flags (String.ofList name)
        | _ => failure
      else return .wordBoundary flags.unicode
  | _ => return .wordBoundary flags.unicode

/-- Reads what follows a backslash. -/
def escaped (flags : Flags) : Reader Primitive := do
  let c ← next
  match c with
  | 'x' => return .literal (← hexEscape 2)
  | 'u' => return .literal (← hexEscape 4)
  | 'U' => return .literal (← hexEscape 8)
  | 'p' => return .set (← unicodeClass flags false)
  | 'P' => return .set (← unicodeClass flags true)
  | 'd' => return .set (perlClass flags 'd')
  | 's' => return .set (perlClass flags 's')
  | 'w' => return .set (perlClass flags 'w')
  | 'D' => return .set (← complementIf flags true (perlClass flags 'd'))
  | 'S' => return .set (← complementIf flags true (perlClass flags 's'))
  | 'W' => return .set (← complementIf flags true (perlClass flags 'w'))
  | 'a' => return .literal '\x07'
  | 'f' => return .literal '\x0C'
  | 't' => return .literal '\t'
  | 'n' => return .literal '\n'
  | 'r' => return .literal '\r'
  | 'v' => return .literal '\x0B'
  | 'A' => return .look .textStart
  | 'z' => return .look .textEnd
  | 'b' => return .look (← boundary flags)
  | 'B' => return .look (.noWordBoundary flags.unicode)
  | '<' => return .look (.wordStart flags.unicode)
  | '>' => return .look (.wordEnd flags.unicode)
  | _ => if isEscapable c then return .literal c else failure

/-- The ASCII classes that are named between colons. -/
def namedClasses : List (String × List (Nat × Nat)) := [
  ("alnum", [(0x30, 0x39), (0x41, 0x5A), (0x61, 0x7A)]), ("alpha", [(0x41, 0x5A), (0x61, 0x7A)]),
  ("ascii", [(0, 0x7F)]), ("blank", [(0x09, 0x09), (0x20, 0x20)]),
  ("cntrl", [(0, 0x1F), (0x7F, 0x7F)]), ("digit", [(0x30, 0x39)]), ("graph", [(0x21, 0x7E)]),
  ("lower", [(0x61, 0x7A)]), ("print", [(0x20, 0x7E)]),
  ("punct", [(0x21, 0x2F), (0x3A, 0x40), (0x5B, 0x60), (0x7B, 0x7E)]),
  ("space", [(0x09, 0x0D), (0x20, 0x20)]), ("upper", [(0x41, 0x5A)]),
  ("word", [(0x30, 0x39), (0x41, 0x5A), (0x5F, 0x5F), (0x61, 0x7A)]),
  ("xdigit", [(0x30, 0x39), (0x41, 0x46), (0x61, 0x66)])]

/-- The ranges of the class whose name comes first in a text, and what follows its closing colon. -/
def namedRanges? (text : List Char) : Option (List (Nat × Nat) × List Char) :=
  let name := text.takeWhile (· != ':')
  match text.drop name.length, namedClasses.lookup (String.ofList name) with
  | ':' :: ']' :: rest, some ranges => some (ranges, rest)
  | _, _ => none

/-- The class named between colons in front of a text: whether it is denied, its ranges, and what
follows. -/
def leadingClass? : List Char → Option (Bool × List (Nat × Nat) × List Char)
  | '[' :: ':' :: '^' :: rest => (namedRanges? rest).map (true, ·)
  | '[' :: ':' :: rest => (namedRanges? rest).map (false, ·)
  | _ => none

/-- A class named between colons, if one comes next. -/
def namedClass? (flags : Flags) : Reader (Option CharSet) := do
  let i ← get
  match leadingClass? i.rest with
  | some (negated, ranges, rest) =>
    set { i with rest }
    return some (← complementIf flags negated (foldCase flags (.ofList ranges)))
  | none => return none

/-- An operation on two classes. -/
inductive SetOp
  | intersection | difference | symmetricDifference

/-- The result of an operation. -/
def SetOp.apply : SetOp → CharSet → CharSet → CharSet
  | .intersection, s, t => s.inter t
  | .difference, s, t => s.diff t
  | .symmetricDifference, s, t => s.symmetricDiff t

/-- An operation, if one comes next. -/
def setOp? : Reader (Option SetOp) := do
  if ← accept "&&" then return some .intersection
  else if ← accept "--" then return some .difference
  else if ← accept "~~" then return some .symmetricDifference
  else return none

/-- What a class has been read to: the operation that waits for its second operand, and the ranges
of the operand being read. -/
structure ClassState where
  waiting : Option (SetOp × CharSet) := none
  ranges : List (Nat × Nat) := []

/-- The class up to here. -/
def ClassState.result (s : ClassState) : CharSet :=
  match s.waiting with
  | none => .ofList s.ranges
  | some (op, first) => op.apply first (.ofList s.ranges)

/-- Adds a set to the operand being read. -/
def ClassState.add (s : ClassState) (set : CharSet) : ClassState :=
  { s with ranges := set.ranges ++ s.ranges }

/-- A character or a class within brackets. -/
def classItem (flags : Flags) : Reader Primitive := do
  let c ← next
  if c == '\\' then escaped flags else return .literal c

/-- The character of a primitive that may be the end of a range. -/
def Primitive.char? : Primitive → Option Char
  | .literal c => some c
  | _ => none

/-- Whether a text goes on with the dash of a range: it is not the last one of a class, nor one of two. -/
def continuesRange (flags : Flags) : List Char → Bool
  | '-' :: behind =>
    let next := (unblanked flags behind).head?
    next != some ']' && next != some '-'
  | _ => false

/-- The set of a primitive by itself within brackets. -/
def Primitive.set? (flags : Flags) : Primitive → Option CharSet
  | .literal c => some (foldCase flags (.single c))
  | .set s => some s
  | .look _ => none

/-- A range, from its dash on. -/
def rangeEnd (flags : Flags) (first : Primitive) : Reader CharSet := do
  skip 1
  blanks flags
  let last ← classItem flags
  let a ← first.char?
  let b ← last.char?
  if b.toNat < a.toNat then failure
  else return foldCase flags (.ofList [(a.toNat, b.toNat)])

/-- A character, a range or an escaped class within brackets. -/
def classRange (flags : Flags) : Reader CharSet := do
  let first ← classItem flags
  blanks flags
  if continuesRange flags (← get).rest then rangeEnd flags first else first.set? flags

/-- Reads a class from behind its bracket to behind the closing one: the set, and how deep classes
nest in it. -/
def classBody (flags : Flags) : (fuel : Nat) → (open_ : Bool) → (negated : Bool) → (depth : Nat) →
    ClassState → Reader (CharSet × Nat)
  | 0, _, _, _, _ => failure
  | fuel + 1, true, _, depth, state => do
    blanks flags
    let negated ← accept "^"
    blanks flags
    let dashes ← takeWhile (· == '-')
    blanks flags
    let state := if dashes.isEmpty then state else state.add (.single '-')
    if dashes.isEmpty && (← peek) == some ']' then
      skip 1
      classBody flags fuel false negated depth (state.add (.single ']'))
    else classBody flags fuel false negated depth state
  | fuel + 1, false, negated, depth, state => do
    blanks flags
    match ← peek with
    | none => failure
    | some '[' =>
      match ← namedClass? flags with
      | some s => classBody flags fuel false negated depth (state.add s)
      | none =>
        skip 1
        let (s, inner) ← classBody flags fuel true false 0 {}
        classBody flags fuel false negated (max depth (inner + 1)) (state.add s)
    | some ']' =>
      skip 1
      return (← complementIf flags negated state.result, depth + 1)
    | some _ =>
      match ← setOp? with
      | some op => classBody flags fuel false negated depth ⟨some (op, state.result), []⟩
      | none => classBody flags fuel false negated depth (state.add (← classRange flags))

/-! ## Repetitions and groups -/

/-- A number with blanks around it. -/
def decimal : Reader Nat := do
  let _ ← takeWhile Text.isBlank
  let digits ← takeWhile Char.isDigit
  let _ ← takeWhile Text.isBlank
  if digits.isEmpty then failure
  else
    let n := digits.foldl (fun n c => n * 10 + (c.toNat - 48)) 0
    if n < Nat.pow 2 32 then return n else failure

/-- The numbers of a repetition, from behind its brace. -/
def counts (flags : Flags) : Reader (Nat × Option Nat) := do
  blanks flags
  let low ← decimal
  if ← accept "," then
    blanks flags
    if ← accept "\x7d" then return (low, none)
    else
      let high ← decimal
      if (← accept "\x7d") && low ≤ high then return (low, some high) else failure
  else if ← accept "\x7d" then return (low, some low)
  else failure

/-- How often an expression repeats, if a repetition comes next. -/
def repetition? (flags : Flags) : Reader (Option (Nat × Option Nat)) := do
  match ← peek with
  | some '*' =>
    skip 1
    return some (0, none)
  | some '+' =>
    skip 1
    return some (1, none)
  | some '?' =>
    skip 1
    return some (0, some 1)
  | some '\x7b' =>
    skip 1
    return some (← counts flags)
  | _ => return none

/-- Flags with one of them set or cleared. -/
def Flags.put (flags : Flags) (value : Bool) : Char → Option Flags
  | 'i' => some { flags with ignoreCase := value }
  | 'm' => some { flags with multiLine := value }
  | 's' => some { flags with dotAll := value }
  | 'U' => some { flags with swapGreed := value }
  | 'u' => some { flags with unicode := value }
  | 'R' => some { flags with crlf := value }
  | 'x' => some { flags with verbose := value }
  | _ => none

/-- The flags that letters give; each letter occurs once, and behind one minus sign they clear. -/
def Flags.update (flags : Flags) (value : Bool) (seen : List Char) : List Char → Option Flags
  | [] => if seen.head? == some '-' then none else some flags
  | c :: cs =>
    if seen.contains c then none
    else if c == '-' then flags.update false (c :: seen) cs
    else do (← flags.put value c).update value (c :: seen) cs

/-- Whether a character may stand in the name of a group, at its front or later. -/
def isGroupLetter (first : Bool) (c : Char) : Bool :=
  c == '_' || Unicode.alphabetic.contains c ||
  (!first && (c == '.' || c == '[' || c == ']' ||
    (Unicode.ofCategory fun a _ => a == 'N').contains c))

/-- The name of a group, from behind its bracket; no other group has it. -/
def groupName : Reader String := do
  let name ← takeWhile (· != '>')
  let _ ← next
  match name with
  | [] => failure
  | c :: cs =>
    let text := String.ofList name
    if isGroupLetter true c && cs.all (isGroupLetter false) &&
        ((← get).names.lookup text).isNone then return text
    else failure

/-- What a parenthesis opens. -/
inductive Opening
  | capture (index : Nat)
  | plain (flags : Flags)
  | setFlags (flags : Flags)

/-- Opens a group that captures. -/
def openCapture (name : Option String) : Reader Opening := do
  let i ← get
  let index := i.groups + 1
  set { i with
    groups := index
    names := match name with | some n => i.names ++ [(n, index)] | none => i.names }
  return .capture index

/-- Reads what a parenthesis opens, from behind it and blanks. -/
def opened (flags : Flags) : Reader Opening := do
  if (← accept "?=") || (← accept "?!") || (← accept "?<=") || (← accept "?<!") then failure
  else if ← accept "?P<" then openCapture (some (← groupName))
  else if ← accept "?<" then openCapture (some (← groupName))
  else if ← accept "?" then
    let letters ← takeWhile fun c => c != ':' && c != ')'
    let closing ← next
    let updated ← flags.update true [] letters
    if closing == ':' then return .plain updated
    else if letters.isEmpty then failure
    else return .setFlags updated
  else openCapture none

/-- Reads what a parenthesis opens, from behind it. -/
def opening (flags : Flags) : Reader Opening := do
  blanks flags
  opened flags

/-! ## Expressions -/

/-- An expression with how deep it nests. -/
structure Piece where
  expr : Expr
  depth : Nat := 0

/-- How deep an expression may nest. -/
def nestLimit : Nat := 250

/-- What has been read of a group: the alternatives before, the last first, and the pieces of the
present one, the last first. A change of flags is a place where nothing can be repeated. -/
structure GroupState where
  alternatives : List Piece := []
  pieces : List (Option Piece) := []

/-- A part of a group. -/
inductive GroupPart
  | bar
  | flags
  | piece (expr : Expr) (depth : Nat)
  /-- Repeats the piece before it. -/
  | repetition (low : Nat) (high : Option Nat) (greedy : Bool)

/-- Pieces one behind the other, from the last up. -/
def concat (pieces : List (Option Piece)) : Piece :=
  match pieces.filterMap id with
  | [] => ⟨.empty, 0⟩
  | [p] => p
  | last :: rest =>
    ⟨rest.foldl (fun e p => .seq p.expr e) last.expr,
      (last :: rest).foldl (fun d p => max d p.depth) 0 + 1⟩

/-- Alternatives, from the last up. -/
def alternate (pieces : List Piece) : Piece :=
  match pieces with
  | [] => ⟨.empty, 0⟩
  | [p] => p
  | last :: rest =>
    ⟨rest.foldl (fun e p => .alt p.expr e) last.expr,
      (last :: rest).foldl (fun d p => max d p.depth) 0 + 1⟩

/-- What has been read of a group as one piece. -/
def GroupState.result (s : GroupState) : Piece := alternate (concat s.pieces :: s.alternatives)

/-- What has been read of a group with one more part. -/
def GroupState.add (s : GroupState) : GroupPart → Option GroupState
  | .bar => some ⟨concat s.pieces :: s.alternatives, []⟩
  | .flags => some { s with pieces := none :: s.pieces }
  | .piece e depth => some { s with pieces := some ⟨e, depth⟩ :: s.pieces }
  | .repetition low high greedy =>
    match s.pieces with
    | some p :: pieces =>
      some { s with pieces := some ⟨.repetition low high greedy p.expr, p.depth + 1⟩ :: pieces }
    | _ => none

/-- The expression of one character. -/
def literal (flags : Flags) (c : Char) : Option Expr :=
  some (.one (foldCase flags (.single c)))

/-- The expression of a dot. -/
def dot (flags : Flags) : Option Expr :=
  if !flags.unicode then none
  else if flags.dotAll then some (.one .all)
  else if flags.crlf then some (.one (CharSet.complement (.ofList [(0x0A, 0x0A), (0x0D, 0x0D)])))
  else some (.one (CharSet.complement (.single '\n')))

/-- The condition of `^`. -/
def caret (flags : Flags) : Look :=
  if !flags.multiLine then .textStart else if flags.crlf then .crlfStart else .lineStart

/-- The condition of `$`. -/
def dollar (flags : Flags) : Look :=
  if !flags.multiLine then .textEnd else if flags.crlf then .crlfEnd else .lineEnd

/-- The expression of a character that opens nothing, from behind it. -/
def atom (flags : Flags) : Char → Reader Expr
  | '.' => dot flags
  | '^' => return .look (caret flags)
  | '$' => return .look (dollar flags)
  | '\\' => do
    match ← escaped flags with
    | .literal c => literal flags c
    | .set s => return .one s
    | .look l => return .look l
  | c => literal flags c

/-- Reads the next part of a group, which begins with the given character; `inside` reads the inside of
a group within it. Yields the flags in force from there on with it. -/
def groupPart (inside : Flags → Reader Piece) (flags : Flags) : Char → Reader (Flags × GroupPart)
  | '|' => do
    skip 1
    return (flags, .bar)
  | '(' => do
    skip 1
    match ← opening flags with
    | .setFlags flags => return (flags, .flags)
    | .plain inner =>
      let p ← inside inner
      if (← next) != ')' then failure
      else return (flags, .piece p.expr (p.depth + 1))
    | .capture index =>
      let p ← inside flags
      if (← next) != ')' then failure
      else return (flags, .piece (.group index p.expr) (p.depth + 1))
  | '[' => do
    skip 1
    let (set, depth) ← classBody flags (2 * (← get).rest.length + 2) true false 0 {}
    return (flags, .piece (.one set) depth)
  | c => do
    match ← repetition? flags with
    | some (low, high) =>
      let lazyMark ← accept "?"
      return (flags, .repetition low high (lazyMark == flags.swapGreed))
    | none =>
      skip 1
      return (flags, .piece (← atom flags c) 0)

/-- Reads a group up to its parenthesis, or to the end of the text, going on from what has been read of
it. Yields all of it, and the flags in force at its end. -/
def groupParts : (fuel : Nat) → Flags → GroupState → Reader (Flags × GroupState)
  | 0, _, _ => failure
  | fuel + 1, flags, state => do
    blanks flags
    match ← peek with
    | none => return (flags, state)
    | some ')' => return (flags, state)
    | some c =>
      let inside := fun inner => do return (← groupParts fuel inner {}).2.result
      let (flags, part) ← groupPart inside flags c
      groupParts fuel flags (← state.add part)

/-- Reads a whole text as an expression, with the names of its groups. -/
def parse? (text : List Char) : Option (Expr × List (String × Nat)) := do
  let ((_, state), i) ← (groupParts (2 * text.length + 2) {} {}).run { rest := text }
  if i.rest.isEmpty ∧ state.result.depth ≤ nestLimit then return (state.result.expr, i.names)
  else none

/-- The regular expression that a text spells. -/
def ofText (room : Capacity) (text : String) : Except Fault Regex :=
  match parse? text.toList with
  | none => .error .grammar
  | some (e, names) => if room e then .ok { node := e.toNode, names } else .error .tooLarge

end Gatehouse.Regex
