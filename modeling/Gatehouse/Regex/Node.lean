import Gatehouse.Unicode.Category

/-!
# Matching

A `Node` is an expression ready for matching. `Node.steps` lists, in order of preference, the ways to
go on from a node at one place of a text: to consume one character and be left with another node,
or to be done. The recursion is on the node, so it needs no bound.
-/

namespace Gatehouse.Regex

open Unicode (CharSet)

/-- A condition on a place in a text. -/
inductive Look
  | textStart
  | textEnd
  | lineStart
  | lineEnd
  /-- The start of a line where a carriage return also ends lines. -/
  | crlfStart
  | crlfEnd
  | wordBoundary (unicode : Bool)
  | noWordBoundary (unicode : Bool)
  | wordStart (unicode : Bool)
  | wordEnd (unicode : Bool)
  | wordStartHalf (unicode : Bool)
  | wordEndHalf (unicode : Bool)
  deriving DecidableEq, Repr, Inhabited

/-- A place in a text: the characters on both sides. -/
structure Place where
  before : Option Char
  after : Option Char

/-- The characters of words within ASCII. -/
def asciiWord : CharSet := .ofList [(0x30, 0x39), (0x41, 0x5A), (0x5F, 0x5F), (0x61, 0x7A)]

/-- Whether there is a character and it belongs to words. -/
def isWord (unicode : Bool) : Option Char → Bool
  | none => false
  | some c => if unicode then Unicode.wordCharacters.contains c else asciiWord.contains c

/-- Whether a condition holds at a place. -/
def Look.holds (here : Place) : Look → Bool
  | .textStart => here.before.isNone
  | .textEnd => here.after.isNone
  | .lineStart => here.before.isNone || here.before == some '\n'
  | .lineEnd => here.after.isNone || here.after == some '\n'
  | .crlfStart => here.before.isNone || here.before == some '\n' ||
      (here.before == some '\r' && here.after != some '\n')
  | .crlfEnd => here.after.isNone || here.after == some '\r' ||
      (here.after == some '\n' && here.before != some '\r')
  | .wordBoundary u => isWord u here.before != isWord u here.after
  | .noWordBoundary u => isWord u here.before == isWord u here.after
  | .wordStart u => !isWord u here.before && isWord u here.after
  | .wordEnd u => isWord u here.before && !isWord u here.after
  | .wordStartHalf u => !isWord u here.before
  | .wordEndHalf u => !isWord u here.after

/-- An expression for matching. -/
inductive Node
  | empty
  /-- One character of a set; the number tells apart the letters of one expression. -/
  | letter (position : Nat) (set : CharSet)
  | look (l : Look)
  /-- Notes the place under a number. -/
  | mark (slot : Nat)
  | seq (a b : Node)
  /-- Either one, the first by preference. -/
  | alt (a b : Node)
  /-- One or more times; whether more are preferred. -/
  | plus (greedy : Bool) (a : Node)
  /-- Zero or more times, behind a character that the repeated node has consumed. -/
  | again (greedy : Bool) (a : Node)
  deriving DecidableEq, Repr, Inhabited

namespace Node

/-- A node and then another one. -/
def followedBy : Node → Node → Node
  | .empty, b => b
  | a, b => .seq a b

/-- At most one time; whether one is preferred. -/
def optional (greedy : Bool) (a : Node) : Node := if greedy then .alt a .empty else .alt .empty a

end Node

/-- A way to go on from a place, with the slots noted at it. -/
inductive Step
  | consume (set : CharSet) (rest : Node) (slots : List Nat)
  | accept (slots : List Nat)

namespace Step

/-- A way to go on with slots noted earlier at the same place. -/
def withSlots (earlier : List Nat) : Step → Step
  | .consume set rest slots => .consume set rest (earlier ++ slots)
  | .accept slots => .accept (earlier ++ slots)

/-- The ways to go on through a node and `b` behind it, from those through the node and those
through `b`. Only the first way to be done with the node goes on to `b`. -/
def andThen (b : Node) (behind : List Step) : List Step → List Step
  | [] => []
  | .consume set rest slots :: steps =>
    .consume set (rest.followedBy b) slots :: andThen b behind steps
  | .accept slots :: steps => behind.map (withSlots slots) ++ andThen b [] steps

end Step

namespace Node

/-- The ways to go on from a node, in order of preference. -/
def steps (here : Place) : Node → List Step
  | .empty => [.accept []]
  | .letter _ set => [.consume set .empty []]
  | .look l => if l.holds here then [.accept []] else []
  | .mark slot => [.accept [slot]]
  | .seq a b => Step.andThen b (steps here b) (steps here a)
  | .alt a b => steps here a ++ steps here b
  | .plus greedy a => (steps here a).map fun
    | .consume set rest slots => .consume set (rest.followedBy (.again greedy a)) slots
    | .accept slots => .accept slots
  | .again greedy a =>
    let more := (steps here a).filterMap fun
      | .consume set rest slots => some (.consume set (rest.followedBy (.again greedy a)) slots)
      | .accept _ => none
    if greedy then more ++ [.accept []] else .accept [] :: more

end Node

end Gatehouse.Regex
