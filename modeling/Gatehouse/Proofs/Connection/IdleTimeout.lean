import Mathlib.Data.List.DropRight
import Gatehouse.Connection.Timeout

/-!
# When a connection has been idle for too long

An attempt to read is idle if it finds nothing while no request is in work for which reads pause. The
timer of reads is due the limit behind the first attempt of the idle row, which is the row of idle
attempts that ends with the last one (`Tracks`), whatever is written and whichever requests begin and end
in between. So an attempt fails for idleness exactly if it ends a row of idle attempts that began the
whole limit ago or earlier.
-/

namespace Gatehouse.ConnectionTimer

/-- What can happen at a connection. What it has for a reader may as well be a fault of its own. -/
inductive Event (α : Type)
  | enter
  | leave
  /-- An attempt to read, with what the connection has at once. -/
  | read (now : Instant) (inner : Attempt α)
  /-- An attempt to write or to flush. -/
  | write (now : Instant) (inner : Attempt (Except ConnectionFault Nat))

/-- An attempt to read: when it was made, what the connection had, how many requests were in work, and
what the attempt came to. -/
structure ReadAttempt (α : Type) where
  now : Instant
  inner : Attempt α
  inWork : Nat
  result : Attempt (Except ConnectionFault α)

/-- How many requests are in work after something has happened. -/
def Event.inWork {α : Type} (n : Nat) : Event α → Nat
  | .enter => n + 1
  | .leave => n - 1
  | .read .. | .write .. => n

/-- Whether an attempt finds nothing while no request is in work for which reads pause. -/
def ReadAttempt.isIdle {α : Type} (pausesReads : Bool) (a : ReadAttempt α) : Bool :=
  a.inner.isNone && !(pausesReads && 0 < a.inWork)

variable {α : Type}

/-- What a connection is after something has happened. -/
def step (t : ConnectionTimer) : Event α → ConnectionTimer
  | .enter => t.enter
  | .leave => t.leave
  | .read now inner => (t.tryRead now inner).2
  | .write now inner => (t.tryWrite now inner).2

/-- The attempt to read that something is, while `n` requests are in work. -/
def attempt? (t : ConnectionTimer) (n : Nat) : Event α → Option (ReadAttempt α)
  | .read now inner => some ⟨now, inner, n, (t.tryRead now inner).1⟩
  | .enter | .leave | .write .. => none

/-- The attempts to read while things happen, in order, where `n` requests are in work before. -/
def attempts (t : ConnectionTimer) (n : Nat) : List (Event α) → List (ReadAttempt α)
  | [] => []
  | e :: events => (t.attempt? n e).toList ++ attempts (t.step e) (e.inWork n) events

/-- The idle attempts in a row at the end of some attempts. -/
def idleRow (pausesReads : Bool) (past : List (ReadAttempt α)) : List (ReadAttempt α) :=
  past.rtakeWhile (·.isIdle pausesReads)

/-- A connection counts the requests in work. Its timer of reads is due the limit behind the first
attempt of the idle row, and does not run if there is no such row. -/
structure Tracks (limit : Duration) (pausesReads : Bool) (n : Nat) (past : List (ReadAttempt α))
    (t : ConnectionTimer) : Prop where
  readLimit : t.readLimit = some limit
  pauses : t.pausesReads = pausesReads
  active : t.active = n
  readDue : t.readDue = (idleRow pausesReads past).head?.map (·.now + limit)

variable {t : ConnectionTimer} {limit : Duration} {pausesReads : Bool} {e : Event α}
  {events : List (Event α)} {past before after row : List (ReadAttempt α)}
  {a b : ReadAttempt α} {now : Instant} {inner : Attempt α} {n : Nat}

/-! ## The idle row -/

theorem idleRow_concat_of_idle (h : a.isIdle pausesReads = true) :
    idleRow pausesReads (past ++ [a]) = idleRow pausesReads past ++ [a] :=
  List.rtakeWhile_concat_pos _ _ _ h

theorem idleRow_concat_of_not_idle (h : a.isIdle pausesReads = false) :
    idleRow pausesReads (past ++ [a]) = [] :=
  List.rtakeWhile_concat_neg _ _ _ (by simp [h])

/-- A row of idle attempts at the end is the end of the idle row. -/
theorem suffix_idleRow (hsuffix : row <:+ past) (hidle : ∀ b ∈ row, b.isIdle pausesReads = true) :
    row <:+ idleRow pausesReads past := by
  obtain ⟨earlier, rfl⟩ := hsuffix
  induction row using List.reverseRecOn with
  | nil => exact List.nil_suffix
  | append_singleton row a ih =>
    rw [← List.append_assoc, idleRow_concat_of_idle (hidle a (by simp))]
    exact List.suffix_append_self_iff.mpr (ih fun b hb => hidle b (by simp [hb]))

/-- If some row of idle attempts at the end began by an instant, then so did the idle row, which is the
longest. -/
theorem exists_row_iff (hmono : (past.map (·.now)).Pairwise (· ≤ ·)) (instant : Instant) :
    (∃ earlier first row, past = earlier ++ first :: row ∧ first.now + limit ≤ instant ∧
        ∀ b ∈ first :: row, b.isIdle pausesReads = true) ↔
      ∃ first ∈ (idleRow pausesReads past).head?, first.now + limit ≤ instant := by
  have hsuffix : idleRow pausesReads past <:+ past := List.rtakeWhile_suffix _ _
  constructor
  · rintro ⟨earlier, b, row, hpast, hnow, hidle⟩
    have hb : b ∈ idleRow pausesReads past :=
      (suffix_idleRow ⟨earlier, hpast.symm⟩ hidle).subset List.mem_cons_self
    obtain ⟨first, rest, hrow⟩ := List.exists_cons_of_ne_nil (List.ne_nil_of_mem hb)
    have hsorted := hmono.sublist (hsuffix.sublist.map (·.now))
    rw [hrow, List.map_cons, List.pairwise_cons] at hsorted
    refine ⟨first, by simp [hrow], ?_⟩
    -- the idle row begins no later than any attempt in it
    rw [hrow] at hb
    obtain rfl | hb := List.mem_cons.mp hb
    · exact hnow
    · have hle : first.now ≤ b.now := hsorted.1 _ (List.mem_map_of_mem hb)
      exact (Nat.add_le_add_right hle limit).trans hnow
  · rintro ⟨first, hfirst, hnow⟩
    obtain ⟨row, hrow⟩ := List.head?_eq_some_iff.mp hfirst
    obtain ⟨earlier, hpast⟩ := hsuffix
    rw [hrow] at hpast
    refine ⟨earlier, first, row, hpast.symm, hnow, fun b hb => ?_⟩
    rw [← hrow] at hb
    exact List.mem_rtakeWhile_imp hb

/-! ## One attempt -/

theorem readsPaused_iff : t.readsPaused = true ↔ t.pausesReads = true ∧ 0 < t.active := by
  simp [readsPaused]

theorem isIdle_iff : a.isIdle pausesReads = true ↔
    a.inner = none ∧ ¬ (pausesReads = true ∧ 0 < a.inWork) := by
  simp [ReadAttempt.isIdle, imp_iff_not_or]

/-- An idle attempt lets the timer run on, or starts it. -/
theorem Tracks.due_of_idle (h : Tracks limit pausesReads n past t) (hidle : a.isIdle pausesReads = true) :
    (idleRow pausesReads (past ++ [a])).head?.map (·.now + limit) =
      some (t.readDue.getD (a.now + limit)) := by
  rw [h.readDue, idleRow_concat_of_idle hidle]
  cases idleRow pausesReads past <;> rfl

/-- An attempt that is not idle has what the connection has, and stops the timer. -/
theorem Tracks.tryRead_of_not_idle (h : Tracks limit pausesReads n past t)
    (ha : t.attempt? n (.read now inner) = some a) (hidle : a.isIdle pausesReads = false) :
    t.tryRead now inner = (inner.map .ok, { t with readDue := none }) := by
  cases ha
  cases inner with
  | some x => rfl
  | none =>
    have hpaused : t.readsPaused = true := by
      rw [readsPaused_iff, h.pauses, h.active]
      by_contra hactive
      exact Bool.false_ne_true (hidle.symm.trans (isIdle_iff.mpr ⟨rfl, hactive⟩))
    rw [tryRead, if_pos hpaused]
    rfl

/-- An idle attempt looks at the timer. -/
theorem Tracks.tryRead_of_idle (h : Tracks limit pausesReads n past t)
    (ha : t.attempt? n (.read now inner) = some a) (hidle : a.isIdle pausesReads = true) :
    t.tryRead now inner =
      (if t.readDue.getD (now + limit) ≤ now then some (.error .readTimeout) else none,
        { t with readDue := some (t.readDue.getD (now + limit)) }) := by
  cases ha
  obtain ⟨rfl, hactive⟩ := isIdle_iff.mp hidle
  rw [← h.pauses, ← h.active, ← readsPaused_iff] at hactive
  rw [tryRead, if_neg hactive, h.readLimit]
  simp [check]

/-- An attempt fails for idleness if its idle row began the whole limit ago, and otherwise has what the
connection has. -/
theorem Tracks.result (h : Tracks limit pausesReads n past t) (ha : t.attempt? n e = some a) :
    (a.result = some (.error .readTimeout) ↔
      ∃ first ∈ (idleRow pausesReads (past ++ [a])).head?, first.now + limit ≤ a.now) ∧
    (a.result ≠ some (.error .readTimeout) → a.result = a.inner.map .ok) := by
  cases e with
  | read now inner =>
    have hnow : now = a.now := by cases ha; rfl
    have hresult : a.result = (t.tryRead now inner).1 := by cases ha; rfl
    cases hidle : a.isIdle pausesReads with
    | false =>
      rw [hresult, h.tryRead_of_not_idle ha hidle, idleRow_concat_of_not_idle hidle]
      cases ha
      cases inner <;> simp
    | true =>
      obtain ⟨first, hfirst, hdue⟩ := Option.map_eq_some_iff.mp (h.due_of_idle hidle)
      rw [hresult, h.tryRead_of_idle ha hidle, hnow, ← hdue, hfirst, (isIdle_iff.mp hidle).1]
      simp
  | enter | leave | write => cases ha

/-- Whatever happens, the timer keeps to the idle row. -/
theorem Tracks.step (h : Tracks limit pausesReads n past t) (e : Event α) :
    Tracks limit pausesReads (e.inWork n) (past ++ (t.attempt? n e).toList) (t.step e) := by
  cases e with
  | enter =>
    rw [attempt?, Option.toList_none, List.append_nil]
    exact ⟨h.readLimit, h.pauses, congrArg (· + 1) h.active, h.readDue⟩
  | leave =>
    rw [attempt?, Option.toList_none, List.append_nil]
    exact ⟨h.readLimit, h.pauses, congrArg (· - 1) h.active, h.readDue⟩
  | write now inner =>
    rw [attempt?, Option.toList_none, List.append_nil]
    cases inner <;> exact ⟨h.readLimit, h.pauses, h.active, h.readDue⟩
  | read now inner =>
    obtain ⟨a, ha⟩ : ∃ a, t.attempt? n (.read now inner) = some a := ⟨_, rfl⟩
    have hnow : now = a.now := by cases ha; rfl
    rw [ha, Option.toList_some, ConnectionTimer.step]
    cases hidle : a.isIdle pausesReads with
    | false =>
      rw [h.tryRead_of_not_idle ha hidle]
      exact ⟨h.readLimit, h.pauses, h.active, by rw [idleRow_concat_of_not_idle hidle]; rfl⟩
    | true =>
      rw [h.tryRead_of_idle ha hidle]
      exact ⟨h.readLimit, h.pauses, h.active, by rw [h.due_of_idle hidle, hnow]⟩

/-! ## Many attempts -/

/-- Whatever happens one after another, the timer keeps to the idle row. -/
theorem Tracks.run (h : Tracks limit pausesReads n past t) (events : List (Event α)) :
    Tracks limit pausesReads (events.foldl Event.inWork n) (past ++ t.attempts n events)
      (events.foldl ConnectionTimer.step t) := by
  induction events generalizing t n past with
  | nil => simpa [attempts] using h
  | cons e events ih =>
    have hrun := ih (h.step e)
    rwa [List.append_assoc] at hrun

/-- Every attempt is one to which the connection came by what had happened before. -/
theorem exists_event_of_attempts (h : t.attempts n events = before ++ a :: after) :
    ∃ early e, t.attempts n early = before ∧
      (early.foldl step t).attempt? (early.foldl Event.inWork n) e = some a := by
  induction events generalizing t n before with
  | nil => simp [attempts] at h
  | cons e events ih =>
    rw [attempts] at h
    cases he : t.attempt? n e with
    | none =>
      -- what is no attempt to read only comes before the others
      rw [he] at h
      obtain ⟨early, e', hbefore, ha⟩ := ih h
      exact ⟨e :: early, e', by rw [attempts, he]; exact hbefore, ha⟩
    | some b =>
      rw [he, Option.toList_some, List.singleton_append] at h
      cases before with
      | nil =>
        obtain ⟨rfl, -⟩ := List.cons_eq_cons.mp h
        exact ⟨[], e, rfl, he⟩
      | cons b' before =>
        obtain ⟨rfl, hrest⟩ := List.cons_eq_cons.mp h
        obtain ⟨early, e', hbefore, ha⟩ := ih hrest
        exact ⟨e :: early, e', by rw [attempts, he, hbefore]; rfl, ha⟩

/-- **A connection is idle for too long.** Let reads have a limit, and let anything happen at the
connection while the clock does not go back. An attempt to read fails for idleness exactly if it ends a
row of attempts that began the limit ago or earlier, in which each found nothing while no request was in
work for which reads pause. If it does not fail, it has what the connection has. So it never fails while
such a request is in work, and not before the whole limit is over since an attempt that was not idle. -/
theorem read_times_out_iff (hlimit : t.readLimit = some limit) (hdue : t.readDue = none)
    (hmono : ((t.attempts t.active events).map (·.now)).Pairwise (· ≤ ·))
    (hsplit : t.attempts t.active events = before ++ a :: after) :
    (a.result = some (.error .readTimeout) ↔
      ∃ earlier first row, before ++ [a] = earlier ++ first :: row ∧ first.now + limit ≤ a.now ∧
        ∀ b ∈ first :: row, b.isIdle t.pausesReads = true) ∧
    (a.result ≠ some (.error .readTimeout) → a.result = a.inner.map .ok) ∧
    (t.pausesReads = true → 0 < a.inWork → a.result = a.inner.map .ok) ∧
    (a.result = some (.error .readTimeout) →
      ∀ b ∈ before, b.isIdle t.pausesReads = false → b.now + limit ≤ a.now) := by
  -- the timer with which the attempt begins keeps to the idle row of the attempts before it
  obtain ⟨early, e, rfl, ha⟩ := exists_event_of_attempts hsplit
  have hstart : Tracks (α := α) limit t.pausesReads t.active [] t := ⟨hlimit, rfl, rfl, hdue⟩
  obtain ⟨htimeout, hother⟩ := (hstart.run early).result ha
  rw [List.nil_append] at htimeout
  have hpast : ((t.attempts t.active early ++ [a]).map (·.now)).Pairwise (· ≤ ·) := by
    refine hmono.sublist (List.Sublist.map _ ?_)
    rw [hsplit, List.append_cons _ a after]
    exact List.sublist_append_left _ _
  rw [← exists_row_iff hpast] at htimeout
  refine ⟨htimeout, hother, fun hpauses hactive => hother fun hfails => ?_, fun hfails b hb hbusy => ?_⟩
  · -- the row would end with an attempt that is not idle
    obtain ⟨earlier, first, row, hrow, -, hidle⟩ := htimeout.mp hfails
    have hmem : a ∈ first :: row := by
      have hlast := congrArg List.getLast? hrow
      rw [List.getLast?_concat, List.getLast?_append_cons] at hlast
      exact List.mem_of_getLast? hlast.symm
    exact (isIdle_iff.mp (hidle a hmem)).2 ⟨hpauses, hactive⟩
  · -- an attempt that is not idle comes before the row
    obtain ⟨earlier, first, row, hrow, hnow, hidle⟩ := htimeout.mp hfails
    have hb : b ∈ earlier := by
      have hmem : b ∈ earlier ++ first :: row := hrow ▸ List.mem_append_left _ hb
      refine (List.mem_append.mp hmem).resolve_right fun hmem => ?_
      exact Bool.false_ne_true (hbusy.symm.trans (hidle b hmem))
    rw [hrow, List.map_append, List.pairwise_append] at hpast
    have hle : b.now ≤ first.now := hpast.2.2 _ (List.mem_map_of_mem hb) _ (by simp)
    exact (Nat.add_le_add_right hle limit).trans hnow

/-- A request is in work at the second attempt and ends before the third, so that the limit of ten begins
anew there, though the first attempt was idle too. -/
theorem read_times_out_iff_after_request :
    let t : ConnectionTimer := { readLimit := some 10, pausesReads := true }
    let events : List (Event Bytes) := [.read 0 none, .enter, .read 12 none, .leave, .read 15 none,
      .write 20 none, .read 25 none]
    ∃ before a, t.attempts t.active events = before ++ [a] ∧ (∀ b ∈ before, b.result = none) ∧
      ((t.attempts t.active events).map (·.now)).Pairwise (· ≤ ·) ∧
      a.result = some (.error .readTimeout) ∧ ∀ b ∈ before, b.inWork = 1 → b.now + 10 ≤ a.now := by
  intro t events
  let before : List (ReadAttempt Bytes) :=
    [⟨0, none, 0, none⟩, ⟨12, none, 1, none⟩, ⟨15, none, 0, none⟩]
  let a : ReadAttempt Bytes := ⟨25, none, 0, some (.error .readTimeout)⟩
  have hsplit : t.attempts t.active events = before ++ [a] := rfl
  have hmono : ((t.attempts t.active events).map (·.now)).Pairwise (· ≤ ·) := by
    rw [hsplit]
    decide
  have hlimit : t.readLimit = some 10 := rfl
  obtain ⟨htimeout, -, -, hbusy⟩ := read_times_out_iff hlimit rfl hmono hsplit
  have hfails : a.result = some (.error .readTimeout) :=
    htimeout.mpr ⟨before.take 2, ⟨15, none, 0, none⟩, [a], rfl, by decide, by decide⟩
  refine ⟨before, a, hsplit, by simp [before], hmono, hfails, fun b hb hactive => ?_⟩
  exact hbusy hfails b hb (by simp [ReadAttempt.isIdle, hactive, t])

end Gatehouse.ConnectionTimer
