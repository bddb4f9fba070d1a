import Gatehouse.Yaml.Cursor

/-!
# YAML documents

`Yaml.parse?` reads a text of one document: mappings and lists in block style by their indentation
and in flow style by their brackets, down to scalars. Anchors, tags and block scalars are not known.
-/

namespace Gatehouse.Yaml

open Config (Node Key)

/-- A scalar without quotes. -/
def plainNode (cs : List Char) : Node := .scalar (resolve cs) (some (String.ofList cs))

/-- A scalar in quotes. -/
def quotedNode (cs : List Char) : Node := .ofText (String.ofList cs)

/-- A value that is left empty. -/
def emptyNode : Node := plainNode []

/-- The key that a node makes; a collection makes none that can be read. -/
def keyOf : Node → Key
  | .scalar (.text s) _ => ⟨some s, true⟩
  | .scalar _ spelling => ⟨spelling, false⟩
  | _ => ⟨none, false⟩

/-! ## Flow style -/

/-- Reads a scalar in either style of quotes, or a plain one. -/
def scalar? (flow : Bool) (indent : Nat) (c : Cursor) : Option (Node × Cursor) :=
  match c.rest with
  | '"' :: _ => (doubleQuoted? c.rest.length (c.skip 1)).map fun (cs, stop) => (quotedNode cs, stop)
  | '\'' :: _ => (singleQuoted? c.rest.length (c.skip 1)).map fun (cs, stop) => (quotedNode cs, stop)
  | _ => (plain? flow indent c).map fun (cs, stop) => (plainNode cs, stop)

/-- Whether a place within brackets has no node. -/
def atFlowEnd (c : Cursor) : Bool :=
  match c.rest with
  | [] => true
  | d :: _ => d == ',' || d == ']' || d == '\x7d' || d == ':'

mutual

/-- Reads a node within brackets, from its first character. -/
def flowNode? : (fuel : Nat) → Cursor → Option (Node × Cursor)
  | 0, _ => none
  | fuel + 1, c =>
    match c.rest with
    | '[' :: _ => (flowItems? fuel (c.skip 1).flowGap).map fun (xs, stop) => (.sequence xs, stop)
    | '\x7b' :: _ => (flowFields? fuel (c.skip 1).flowGap).map fun (xs, stop) => (.mapping xs, stop)
    | _ => scalar? true 0 c

/-- Reads the value behind a key within brackets; it may be left out. -/
def flowValue? : (fuel : Nat) → Cursor → Option (Node × Cursor)
  | 0, _ => none
  | fuel + 1, c =>
    match c.rest with
    | ':' :: _ =>
      let c := (c.skip 1).flowGap
      if atFlowEnd c then some (emptyNode, c)
      else (flowNode? fuel c).map fun (x, stop) => (x, stop.flowGap)
    | _ => some (emptyNode, c)

/-- Reads the items of a list in brackets; one with a key is a mapping of its own. -/
def flowItems? : (fuel : Nat) → Cursor → Option (List Node × Cursor)
  | 0, _ => none
  | fuel + 1, c =>
    match c.rest with
    | ']' :: _ => some ([], c.skip 1)
    | _ => do
      let (x, c) ← if c.rest.head? == some ':' then some (emptyNode, c) else flowNode? fuel c
      let c := c.flowGap
      let (x, c) ← if c.rest.head? == some ':' then
          (flowValue? fuel c).map fun (v, stop) => (.mapping [(keyOf x, v)], stop)
        else some (x, c)
      match c.rest with
      | ',' :: _ =>
        let (xs, stop) ← flowItems? fuel (c.skip 1).flowGap
        return (x :: xs, stop)
      | ']' :: _ => return ([x], c.skip 1)
      | _ => none

/-- Reads the fields of a mapping in braces. -/
def flowFields? : (fuel : Nat) → Cursor → Option (List (Key × Node) × Cursor)
  | 0, _ => none
  | fuel + 1, c =>
    match c.rest with
    | '\x7d' :: _ => some ([], c.skip 1)
    | _ => do
      let (k, c) ← if c.rest.head? == some ':' then some (emptyNode, c) else flowNode? fuel c
      let (v, c) ← flowValue? fuel c.flowGap
      match c.rest with
      | ',' :: _ =>
        let (xs, stop) ← flowFields? fuel (c.skip 1).flowGap
        return ((keyOf k, v) :: xs, stop)
      | '\x7d' :: _ => return ([(keyOf k, v)], c.skip 1)
      | _ => none

end

/-! ## Block style -/

/-- Reads a key of a mapping in block style with its colon, all on one line. -/
def key? (c : Cursor) : Option (Key × Cursor) := do
  let (node, stop) ← match c.rest with
    | '"' :: _ => scalar? false 0 c
    | '\'' :: _ => scalar? false 0 c
    | _ =>
      let line := c.rest.takeWhile (· != '\n')
      match plain? false 0 ⟨c.column, line⟩ with
      | some (cs, stop) => some (plainNode cs, c.skip (stop.column - c.column))
      | none => none
  let taken := c.rest.take (c.rest.length - stop.rest.length)
  if taken.contains '\n' then none
  let (bs, rest) := blanks stop.rest
  match rest with
  | ':' :: rest => if atBlank rest then some (keyOf node, ⟨stop.column + bs.length + 1, rest⟩) else none
  | _ => none

/-- Reads a scalar or a collection in flow style, to the next line. -/
def lineNode? (fuel indent : Nat) (c : Cursor) : Option (Node × Cursor) := do
  let (x, stop) ← match c.rest.head? with
    | some '[' => flowNode? fuel c
    | some '\x7b' => flowNode? fuel c
    | _ => scalar? false indent c
  return (x, ← stop.finishLine?)

mutual

/-- Reads a node in block style, from its first character to the next token behind it. A plain
scalar goes on at column `indent`. -/
def blockNode? : (fuel indent : Nat) → Cursor → Option (Node × Cursor)
  | 0, _, _ => none
  | fuel + 1, indent, c =>
    if atItem c.rest then
      (blockItems? fuel c.column c).map fun (xs, stop) => (.sequence xs, stop)
    else if (key? c).isSome then
      (blockFields? fuel c.column c).map fun (xs, stop) => (.mapping xs, stop)
    else lineNode? fuel indent c

/-- Reads the items of a list whose dashes stand in one column. -/
def blockItems? : (fuel column : Nat) → Cursor → Option (List Node × Cursor)
  | 0, _, _ => none
  | fuel + 1, column, c => do
    let (_, next) := (c.skip 1).gap false
    let (x, next) ←
      if next.rest.isEmpty || next.column ≤ column then some (emptyNode, next)
      else blockNode? fuel (column + 1) next
    if next.rest.isEmpty || next.column < column then return ([x], next)
    else if next.column = column then
      if atItem next.rest then
        let (xs, stop) ← blockItems? fuel column next
        return (x :: xs, stop)
      else return ([x], next)
    else none

/-- Reads the fields of a mapping whose keys stand in one column. The value of a key is on its line,
or further right on the next ones; a list may also stand in the column of the keys. -/
def blockFields? : (fuel column : Nat) → Cursor → Option (List (Key × Node) × Cursor)
  | 0, _, _ => none
  | fuel + 1, column, c => do
    let (k, c) ← key? c
    let (crossed, next) := c.gap true
    let (x, next) ←
      if next.rest.isEmpty then some (emptyNode, next)
      else if !crossed then lineNode? fuel (column + 1) next
      else if column < next.column then blockNode? fuel (column + 1) next
      else if next.column = column ∧ atItem next.rest then
        (blockItems? fuel column next).map fun (xs, stop) => (.sequence xs, stop)
      else some (emptyNode, next)
    if next.rest.isEmpty || next.column < column then return ([(k, x)], next)
    else if next.column = column then
      let (xs, stop) ← blockFields? fuel column next
      return ((k, x) :: xs, stop)
    else none

end

/-! ## Documents -/

/-- Whether a line begins or ends a document. -/
def isMarker (mark : List Char) (line : List Char) : Bool :=
  line.take 3 == mark && atBlank (line.drop 3)

/-- Whether a line has nothing but blanks and a comment. -/
def isVoid (line : List Char) : Bool :=
  match (blanks line).2 with
  | [] => true
  | c :: _ => c == '#'

/-- The lines of the only document of a text. -/
def onlyDocument? (lines : List (List Char)) : Option (List (List Char)) := do
  let isMark (line : List Char) := isMarker ['-', '-', '-'] line || isMarker ['.', '.', '.'] line
  let head := lines.takeWhile (!isMark ·)
  let (document, rest) ← match lines.drop head.length with
    | [] => some (head, [])
    | mark :: rest =>
      if !head.all isVoid then some (head, mark :: rest)
      else if isMarker ['.', '.', '.'] mark then none
      else
        let body := rest.takeWhile (!isMark ·)
        some (([' ', ' ', ' '] ++ mark.drop 3) :: body, rest.drop body.length)
  if rest.all fun line => isVoid line || isMarker ['.', '.', '.'] line then some document else none

/-- A text whose lines all end with a line feed. -/
def withLineFeeds : List Char → List Char
  | '\r' :: '\n' :: cs => '\n' :: withLineFeeds cs
  | '\r' :: cs => '\n' :: withLineFeeds cs
  | c :: cs => c :: withLineFeeds cs
  | [] => []

/-- The tree of a text. -/
def parse? (text : List Char) : Option Node := do
  let text := if text.head? == some '\uFEFF' then text.drop 1 else text
  let lines ← onlyDocument? (Text.splitOn '\n' (withLineFeeds text))
  let text := lines.flatMap (· ++ ['\n'])
  let (_, c) := (Cursor.mk 0 text).gap false
  if c.rest.isEmpty then some emptyNode
  else match blockNode? (2 * text.length + 4) 0 c with
    | some (x, stop) => if stop.rest.isEmpty then some x else none
    | none => none

end Gatehouse.Yaml
