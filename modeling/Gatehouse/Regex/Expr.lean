import Gatehouse.Regex.Node

/-!
# Expressions

An `Expr` is what the text of a regular expression says. `Expr.toNode` spells its counted
repetitions out. What that takes is measured elsewhere: a `Capacity` says for which expressions there
is room.
-/

namespace Gatehouse.Regex

open Unicode (CharSet)

/-- A regular expression. -/
inductive Expr
  | empty
  | one (set : CharSet)
  | look (l : Look)
  | seq (a b : Expr)
  | alt (a b : Expr)
  /-- From `low` to `high` times, or without an upper end; whether more are preferred. -/
  | repetition (low : Nat) (high : Option Nat) (greedy : Bool) (a : Expr)
  | group (index : Nat) (a : Expr)
  deriving DecidableEq, Repr, Inhabited

namespace Expr

/-- Whether the empty text can match. -/
def nullable : Expr → Bool
  | .empty => true
  | .one _ => false
  | .look _ => true
  | .seq a b => a.nullable && b.nullable
  | .alt a b => a.nullable || b.nullable
  | .repetition low _ _ a => low == 0 || a.nullable
  | .group _ a => a.nullable

/-- Whether only the empty text can match. -/
def widthless : Expr → Bool
  | .empty => true
  | .one _ => false
  | .look _ => true
  | .seq a b => a.widthless && b.widthless
  | .alt a b => a.widthless && b.widthless
  | .repetition _ high _ a => high == some 0 || a.widthless
  | .group _ a => a.widthless

/-- A node that makes use of fresh positions for its letters. -/
abbrev Numbered := StateM Nat

/-- So many copies of a node, one behind the other. -/
def copies (node : Numbered Node) : Nat → Numbered Node
  | 0 => return .empty
  | 1 => node
  | n + 1 => return .seq (← node) (← copies node n)

/-- Up to so many copies of a node. -/
def upTo (greedy : Bool) (node : Numbered Node) : Nat → Numbered Node
  | 0 => return .empty
  | n + 1 => return .optional greedy ((← node).followedBy (← upTo greedy node n))

/-- The node of an expression, its letters numbered in order. -/
def numberedNode : Expr → Numbered Node
  | .empty => return .empty
  | .one set => do
    let position ← modifyGet fun n => (n, n + 1)
    return .letter position set
  | .look l => return .look l
  | .seq a b => return (← a.numberedNode).followedBy (← b.numberedNode)
  | .alt a b => return .alt (← a.numberedNode) (← b.numberedNode)
  | .group index a => return .seq (.mark (2 * index)) (.seq (← a.numberedNode) (.mark (2 * index + 1)))
  | .repetition low high greedy a =>
    -- What matches only the empty text need not be repeated.
    let (low, high) := if a.widthless then (min low 1, some (min (high.getD 1) 1)) else (low, high)
    match high, low with
    | none, 0 =>
      if a.nullable then return .optional greedy (.plus greedy (← a.numberedNode))
      else return .again greedy (← a.numberedNode)
    | none, low + 1 =>
      return (← copies a.numberedNode low).followedBy (.plus greedy (← a.numberedNode))
    | some high, low =>
      return (← copies a.numberedNode low).followedBy
        (← upTo greedy a.numberedNode (high - low))

/-- The node of an expression. -/
def toNode (e : Expr) : Node := (e.numberedNode.run 0).1

end Expr

/-- The most bytes that an expression may take. -/
def sizeLimit : Nat := 10485760

/-- For which expressions there is room within the limit. -/
abbrev Capacity := Expr → Bool

end Gatehouse.Regex
