import Gatehouse.Bytes

/-!
# Pools of buffers

A pool lends empty buffers and takes them back for reuse, unless they have grown too large. A buffer
is its contents with the capacity it has.
-/

namespace Gatehouse

/-- A growing run of bytes. -/
structure Buffer where
  content : Bytes := []
  capacity : Nat
  deriving DecidableEq, Repr, Inhabited

namespace Buffer

/-- Adds bytes; a buffer that is too small gets twice its capacity or what is needed, and at least
eight. -/
def write (b : Buffer) (bytes : Bytes) : Buffer :=
  let needed := b.content.length + bytes.length
  { content := b.content ++ bytes
    capacity := if needed ≤ b.capacity then b.capacity else max (2 * b.capacity) (max needed 8) }

/-- The buffer without its contents. -/
def clear (b : Buffer) : Buffer := { b with content := [] }

end Buffer

/-- A pool of buffers, the one returned last in front. -/
structure BufferPool where
  initial : Nat := 64 * 1024
  maximum : Nat := 1024 * 1024
  idle : List Buffer := []
  deriving DecidableEq, Repr, Inhabited

namespace BufferPool

/-- The most buffers that a pool keeps. -/
def maxIdle : Nat := 256

/-- Lends a buffer. -/
def acquire (p : BufferPool) : Buffer × BufferPool :=
  match p.idle with
  | b :: idle => (b, { p with idle })
  | [] => ({ capacity := p.initial }, p)

/-- Takes a buffer back; one that has grown beyond the maximum is thrown away. -/
def release (p : BufferPool) (b : Buffer) : BufferPool :=
  if p.maximum < b.capacity then p
  else if p.idle.length < maxIdle then { p with idle := b.clear :: p.idle }
  else p

end BufferPool

/-- A pool with the buffers on loan, each under the number of its holder. -/
structure Lending where
  pool : BufferPool := {}
  loans : List (Nat × Buffer) := []
  deriving DecidableEq, Repr, Inhabited

namespace Lending

/-- The buffer that a holder has. -/
def loan? (l : Lending) (holder : Nat) : Option Buffer := l.loans.lookup holder

/-- Takes back the buffer of a holder, if it has one. -/
def release (l : Lending) (holder : Nat) : Lending :=
  match l.loan? holder with
  | some b =>
    { pool := l.pool.release b, loans := l.loans.filter fun (i, _) => i != holder }
  | none => l

/-- Lends a buffer to a holder, who then returns the one it had. -/
def acquire (l : Lending) (holder : Nat) : Lending :=
  let (b, pool) := l.pool.acquire
  let l := { l with pool }.release holder
  { l with loans := l.loans ++ [(holder, b)] }

/-- Writes to the buffer of a holder. -/
def write (l : Lending) (holder : Nat) (bytes : Bytes) : Lending :=
  { l with loans := l.loans.map fun (i, b) => (i, if i = holder then b.write bytes else b) }

/-- Takes back all buffers. -/
def releaseAll (l : Lending) : Lending := (l.loans.map Prod.fst).foldl release l

end Lending

end Gatehouse
