import Gatehouse.Body.Pool
import Gatehouse.Proofs.Lookup

/-!
# Buffers in circulation

A pool lends its buffers to any number of holders and takes them back for others. `Circulation` is a
pool with the buffers on loan and those on their way back: between the moment at which a holder lets
go of a buffer and the one at which the pool takes it back the others may do anything. `step` is what
one action does, and `run` takes actions in any order.

Nothing looks at a buffer when it is lent. That it is empty rests on `Tidy`, which every run keeps:
what comes among the idle buffers of a pool has been cleared. So a holder finds in its buffer what it
has put there itself, which is its `ownContent`.
-/

namespace Gatehouse

/-! ## The idle buffers of a pool -/

namespace BufferPool

variable {p : BufferPool} {b : Buffer} {maximum : Nat}

/-- The idle buffers of a pool are few, empty and not too large. -/
structure Tidy (maximum : Nat) (p : BufferPool) : Prop where
  maximum_eq : p.maximum = maximum
  few : p.idle.length ≤ maxIdle
  empty : ∀ b ∈ p.idle, b.content = []
  small : ∀ b ∈ p.idle, b.capacity ≤ maximum

theorem tidy_fresh (initial maximum : Nat) : Tidy maximum { initial, maximum } where
  maximum_eq := rfl
  few := Nat.zero_le _
  empty := nofun
  small := nofun

/-- An idle buffer is empty when it is lent, and so is one that has never been lent before. -/
theorem Tidy.content_acquire (h : Tidy maximum p) : p.acquire.1.content = [] := by
  unfold BufferPool.acquire
  split
  · next b idle hidle =>
    have hmem : b ∈ p.idle := hidle ▸ List.mem_cons_self
    exact h.empty b hmem
  · rfl

theorem Tidy.acquire (h : Tidy maximum p) : Tidy maximum p.acquire.2 := by
  unfold BufferPool.acquire
  split
  · next b idle hidle =>
    have hlength : idle.length < p.idle.length := by
      rw [hidle, List.length_cons]
      exact Nat.lt_succ_self _
    have hkept : ∀ b' ∈ idle, b' ∈ p.idle := fun b' hb' => hidle ▸ List.mem_cons_of_mem b hb'
    exact {
      maximum_eq := h.maximum_eq
      few := Nat.le_trans (Nat.le_of_lt hlength) h.few
      empty := fun b' hb' => h.empty b' (hkept b' hb')
      small := fun b' hb' => h.small b' (hkept b' hb') }
  · exact h

/-- A buffer that is too large, or for which there is no room, does not come among the idle ones, and
any other is cleared before. -/
theorem Tidy.release (h : Tidy maximum p) (b : Buffer) : Tidy maximum (p.release b) := by
  unfold BufferPool.release
  split
  · exact h
  · next hsmall =>
    split
    · next hroom =>
      have hcapacity : b.clear.capacity ≤ maximum := h.maximum_eq ▸ Nat.le_of_not_lt hsmall
      exact {
        maximum_eq := h.maximum_eq
        few := hroom
        empty := List.forall_mem_cons.mpr ⟨rfl, h.empty⟩
        small := List.forall_mem_cons.mpr ⟨hcapacity, h.small⟩ }
    · exact h

end BufferPool

/-! ## The buffers on loan -/

namespace Lending

variable {maximum : Nat}

/-- The lending after a holder has done something to its buffer. -/
def alter (l : Lending) (holder : Nat) (f : Buffer → Buffer) : Lending :=
  { l with loans := l.loans.map fun (i, b) => (i, if i = holder then f b else b) }

/-- The lending after a holder has let go of its buffer. -/
def withdraw (l : Lending) (holder : Nat) : Lending :=
  { l with loans := l.loans.filter fun (i, _) => i != holder }

theorem loan?_alter (l : Lending) (holder : Nat) (f : Buffer → Buffer) (i : Nat) :
    (l.alter holder f).loan? i = (l.loan? i).map fun b => if i = holder then f b else b :=
  lookup_map (fun i b => if i = holder then f b else b) l.loans i

theorem loan?_withdraw (l : Lending) (holder i : Nat) :
    (l.withdraw holder).loan? i = if i = holder then none else l.loan? i := by
  have hlookup := lookup_filter (fun i => i != holder) l.loans i
  by_cases hi : i = holder
  · rw [if_pos hi]
    rwa [if_neg (by simpa using hi)] at hlookup
  · rw [if_neg hi]
    rwa [if_pos (by simpa using hi)] at hlookup

theorem loan?_release (l : Lending) (holder i : Nat) :
    (l.release holder).loan? i = if i = holder then none else l.loan? i := by
  unfold release
  split
  · exact loan?_withdraw l holder i
  · next hnone =>
    split
    next hi => rw [hi, hnone]
    next => rfl

/-- A holder that acquires a buffer has the one that the pool lends; the others keep theirs. -/
theorem loan?_acquire (l : Lending) (holder i : Nat) :
    (l.acquire holder).loan? i = if i = holder then some l.pool.acquire.1 else l.loan? i := by
  have hold : (release { l with pool := l.pool.acquire.2 } holder).loan? i =
      if i = holder then none else l.loan? i := loan?_release _ holder i
  have hsplit : (l.acquire holder).loan? i =
      ((release { l with pool := l.pool.acquire.2 } holder).loan? i).or
        ([(holder, l.pool.acquire.1)].lookup i) := List.lookup_append
  rw [hsplit, hold]
  by_cases hi : i = holder
  · rw [if_pos hi, if_pos hi, hi, Option.none_or, List.lookup_cons_self]
  · have hne : (i == holder) = false := beq_eq_false_iff_ne.mpr hi
    rw [if_neg hi, if_neg hi, List.lookup_cons, hne, List.lookup_nil, Option.or_none]

theorem tidy_release {l : Lending} (h : l.pool.Tidy maximum) (holder : Nat) :
    (l.release holder).pool.Tidy maximum := by
  unfold release
  split
  · exact h.release _
  · exact h

theorem tidy_acquire {l : Lending} (h : l.pool.Tidy maximum) (holder : Nat) :
    (l.acquire holder).pool.Tidy maximum :=
  tidy_release (l := { l with pool := l.pool.acquire.2 }) h.acquire holder

end Lending

/-! ## Circulation -/

/-- A pool with its buffers on loan, each under the number of its holder, and with those that their
holders have let go of and that it has not taken back yet. -/
structure Circulation where
  lending : Lending
  returning : List Buffer := []

namespace Circulation

/-- What the holders of buffers and their pool do. -/
inductive Action
  | acquire (holder : Nat)
  | write (holder : Nat) (bytes : Bytes)
  /-- A holder does anything else to its buffer, which is then as given. -/
  | change (holder : Nat) (b : Buffer)
  | letGo (holder : Nat)
  /-- The pool takes back the buffer at a place among those on their way. -/
  | takeBack (place : Nat)
  deriving DecidableEq, Repr

/-- A pool of which nobody has had a buffer yet. -/
def fresh (initial maximum : Nat) : Circulation := { lending := { pool := { initial, maximum } } }

/-- What one action does; a holder without a buffer can only acquire one. -/
def step (c : Circulation) : Action → Circulation
  | .acquire holder => { c with lending := c.lending.acquire holder }
  | .write holder bytes => { c with lending := c.lending.write holder bytes }
  | .change holder b => { c with lending := c.lending.alter holder fun _ => b }
  | .letGo holder =>
    match c.lending.loan? holder with
    | some b => { lending := c.lending.withdraw holder, returning := b :: c.returning }
    | none => c
  | .takeBack place =>
    match c.returning[place]? with
    | some b =>
      { lending := { c.lending with pool := c.lending.pool.release b }
        returning := c.returning.eraseIdx place }
    | none => c

/-- What a sequence of actions does. -/
def run (c : Circulation) (actions : List Action) : Circulation := actions.foldl step c

/-- What a holder finds in its buffer, if it has one. -/
def content? (c : Circulation) (holder : Nat) : Option Bytes :=
  (c.lending.loan? holder).map Buffer.content

/-- What an action makes of the content of a holder's buffer if the actions of others make nothing of
it. -/
def Action.contentFor (holder : Nat) (content : Option Bytes) : Action → Option Bytes
  | .acquire i => if holder = i then some [] else content
  | .write i bytes => if holder = i then content.map (· ++ bytes) else content
  | .change i b => if holder = i then content.map fun _ => b.content else content
  | .letGo i => if holder = i then none else content
  | .takeBack _ => content

/-- What a holder has put into its buffer since it acquired it, if it has one. -/
def ownContent (holder : Nat) (actions : List Action) : Option Bytes :=
  actions.foldl (Action.contentFor holder) none

variable {c : Circulation} {maximum : Nat}

/-- A holder's letting go of its buffer and the pool's taking it back are together the release of the
buffer. -/
theorem run_letGo_takeBack {holder : Nat} {b : Buffer} (h : c.lending.loan? holder = some b) :
    c.run [.letGo holder, .takeBack 0] = { c with lending := c.lending.release holder } := by
  simp [run, step, h, Lending.release, Lending.withdraw]

theorem tidy_step (h : c.lending.pool.Tidy maximum) (action : Action) :
    (c.step action).lending.pool.Tidy maximum := by
  cases action with
  | acquire holder => exact Lending.tidy_acquire h holder
  | write holder bytes => exact h
  | change holder b => exact h
  | letGo holder =>
    simp only [step]
    split
    · exact h
    · exact h
  | takeBack place =>
    simp only [step]
    split
    · exact h.release _
    · exact h

theorem tidy_run (h : c.lending.pool.Tidy maximum) (actions : List Action) :
    (c.run actions).lending.pool.Tidy maximum := by
  induction actions generalizing c with
  | nil => exact h
  | cons action rest ih => exact ih (tidy_step h action)

/-- What a holder does to its buffer only this holder sees. -/
theorem content?_alter (f : Buffer → Buffer) (g : Bytes → Bytes)
    (hcontent : ∀ b, (f b).content = g b.content) (c : Circulation) (i holder : Nat) :
    content? { c with lending := c.lending.alter i f } holder =
      if holder = i then (c.content? holder).map g else c.content? holder := by
  rw [content?, Lending.loan?_alter, content?, Option.map_map, Option.map_map]
  split
  · exact congrArg (Option.map · (c.lending.loan? holder)) (funext hcontent)
  · rfl

/-- As long as idle buffers are empty, a holder finds in its buffer what its own actions make of it. -/
theorem content?_step (h : c.lending.pool.Tidy maximum) (action : Action) (holder : Nat) :
    (c.step action).content? holder = action.contentFor holder (c.content? holder) := by
  cases action with
  | acquire i =>
    -- only here does a holder get a buffer that others may have had
    rw [content?, step, Lending.loan?_acquire, Action.contentFor]
    split
    · rw [Option.map_some, h.content_acquire]
    · rfl
  | write i bytes =>
    have hcontent (b : Buffer) : (b.write bytes).content = b.content ++ bytes := rfl
    exact content?_alter (·.write bytes) (· ++ bytes) hcontent c i holder
  | change i b => exact content?_alter (fun _ => b) (fun _ => b.content) (fun _ => rfl) c i holder
  | letGo i =>
    simp only [step, Action.contentFor]
    split
    · rw [content?, Lending.loan?_withdraw]
      split
      · rfl
      · rfl
    · next hnone =>
      split
      next hholder => rw [content?, hholder, hnone, Option.map_none]
      next => rfl
  | takeBack place =>
    simp only [step]
    split
    · rfl
    · rfl

theorem content?_run (h : c.lending.pool.Tidy maximum) (actions : List Action) (holder : Nat) :
    (c.run actions).content? holder =
      actions.foldl (Action.contentFor holder) (c.content? holder) := by
  induction actions generalizing c with
  | nil => rfl
  | cons action rest ih =>
    have hrest : ((c.step action).run rest).content? holder =
        rest.foldl (Action.contentFor holder) ((c.step action).content? holder) :=
      ih (tidy_step h action)
    rw [content?_step h action holder] at hrest
    exact hrest

/-- **Nothing is left behind in a buffer.** Whatever the holders of a pool's buffers do and in whatever
order: the next to acquire a buffer gets the one that the pool lends, which is empty; what a holder
finds in its buffer is what it has put there itself; and the pool keeps 256 idle buffers at most, all
of them empty and none above the maximum. -/
theorem nothing_left_behind (initial maximum : Nat) (actions : List Action) :
    let c := run (fresh initial maximum) actions
    (∀ holder, (c.step (.acquire holder)).lending.loan? holder = some c.lending.pool.acquire.1) ∧
      c.lending.pool.acquire.1.content = [] ∧
      (∀ holder, c.content? holder = ownContent holder actions) ∧
      c.lending.pool.idle.length ≤ 256 ∧
      ∀ b ∈ c.lending.pool.idle, b.content = [] ∧ b.capacity ≤ maximum := by
  intro c
  have hfresh : (fresh initial maximum).lending.pool.Tidy maximum :=
    BufferPool.tidy_fresh initial maximum
  have htidy : c.lending.pool.Tidy maximum := tidy_run hfresh actions
  refine ⟨?_, htidy.content_acquire, content?_run hfresh actions, htidy.few, ?_⟩
  · intro holder
    have hloan := Lending.loan?_acquire c.lending holder holder
    rwa [if_pos rfl] at hloan
  · intro b hb
    exact ⟨htidy.empty b hb, htidy.small b hb⟩

/-- A buffer is on its way back while another is filled beyond the maximum. A third holder gets the first
buffer again, and a fourth lets go of one that is just small enough. -/
theorem nothing_left_behind_recycled :
    let actions : List Action := [.acquire 0, .write 0 [115, 101, 99, 114, 101, 116], .letGo 0,
      .acquire 1, .takeBack 0, .write 1 (List.replicate 40 1), .write 1 (List.replicate 40 1),
      .letGo 1, .takeBack 0, .acquire 2, .write 2 [104, 105], .acquire 3, .change 3 ⟨[7], 64⟩,
      .letGo 3, .takeBack 0]
    let c := run (fresh 16 64) actions
    let idle : Buffer := ⟨[], 64⟩
    c.lending.loan? 2 = some ⟨[104, 105], 16⟩ ∧ ownContent 2 actions = some [104, 105] ∧
      c.lending.pool.acquire.1.content = [] ∧
      idle ∈ c.lending.pool.idle ∧ idle.content = [] ∧ idle.capacity ≤ 64 := by
  intro actions c idle
  obtain ⟨-, hacquire, hown, -, hidle⟩ := nothing_left_behind 16 64 actions
  have hloan : c.lending.loan? 2 = some ⟨[104, 105], 16⟩ := by rfl
  have hcontent : c.content? 2 = some [104, 105] := by
    rw [content?, hloan, Option.map_some]
  have hmem : idle ∈ c.lending.pool.idle := by
    have hall : c.lending.pool.idle = [idle] := by rfl
    rw [hall]
    exact List.mem_singleton_self idle
  exact ⟨hloan, (hown 2).symm.trans hcontent, hacquire, hmem, hidle idle hmem⟩

end Circulation

end Gatehouse
