import Gatehouse.Bytes
import Gatehouse.Time.Waiting

/-!
# Streams of body frames

A source yields frames of data, at its own pace. A read limit turns a source that keeps its reader
waiting for too long into one that fails.
-/

namespace Gatehouse

/-- What a stream of a body yields. -/
inductive Frame
  | data (bytes : Bytes)
  | trailers
  | failure (reason : String)
  deriving DecidableEq, Repr, Inhabited

/-- What a stream is going to do. -/
inductive Chunk
  | frame (f : Frame)
  | delay (d : Duration)
  /-- Nothing more, ever. -/
  | stall
  deriving DecidableEq, Repr, Inhabited

/-- A stream of frames. -/
structure Source where
  chunks : List Chunk
  /-- The number of bytes that the stream announces. -/
  size : Option Nat := none
  /-- The end of the delay at the front, if it has been waited for. -/
  wake : Option Instant := none
  /-- The instant from which the stream fails instead of keeping its reader waiting. -/
  deadline : Option Instant := none
  deriving DecidableEq, Repr, Inhabited

namespace Source

/-- The stream of bytes that are there already. -/
def ofBytes (bytes : Bytes) : Source :=
  { chunks := if bytes.isEmpty then [] else [.frame (.data bytes)], size := some bytes.length }

/-- The stream with a limit to how long it may take from `now` on. -/
def withReadLimit (s : Source) (now : Instant) (limit : Option Duration) : Source :=
  { s with deadline := limit.map (now + ·) }

/-- What a stream fails with at its deadline. -/
def timedOut : Frame := .failure "request body read timed out"

/-- A frame, or the end of the stream, and what follows. -/
structure Arrival where
  frame : Option Frame
  rest : Source
  deriving Repr

/-- Fails at the deadline, or is given up, whichever is first. -/
def expire (s : Source) (now : Instant) (limit : Option Instant) : Waited Arrival :=
  match s.deadline with
  | none => .givenUp
  | some deadline =>
    if deadline ≤ now then .done now ⟨some timedOut, s⟩
    else if comesBefore deadline limit then .done deadline ⟨some timedOut, s⟩
    else .givenUp

/-- Waits for the next frame among some chunks of the stream. -/
def nextAmong (s : Source) (limit : Option Instant) :
    (now : Instant) → (wake : Option Instant) → List Chunk → Waited Arrival
  | now, _, [] => .done now ⟨none, { s with chunks := [], wake := none }⟩
  | now, _, .frame f :: chunks => .done now ⟨some f, { s with chunks, wake := none }⟩
  | now, _, .stall :: chunks => expire { s with chunks := .stall :: chunks, wake := none } now limit
  | now, wake, .delay d :: chunks =>
    let wake := wake.getD (now + d)
    if wake ≤ now then nextAmong s limit now none chunks
    else if comesBefore wake limit && s.deadline.all fun deadline => decide (wake ≤ deadline) then
      nextAmong s limit wake none chunks
    else expire { s with chunks := .delay d :: chunks, wake := some wake } now limit

/-- Waits for the next frame. -/
def next (s : Source) (now : Instant) (limit : Option Instant) : Waited Arrival :=
  nextAmong s limit now s.wake s.chunks

theorem nextAmong_length {s : Source} {limit : Option Instant} {now finish : Instant}
    {wake : Option Instant} {chunks : List Chunk} {f : Frame} {rest : Source}
    (h : nextAmong s limit now wake chunks = .done finish ⟨some f, rest⟩) :
    f = timedOut ∨ rest.chunks.length < chunks.length := by
  induction chunks generalizing now wake with
  | nil => simp [nextAmong] at h
  | cons c chunks ih =>
    have expired {t : Source} {n : Instant}
        (h : expire t n limit = .done finish ⟨some f, rest⟩) : f = timedOut := by
      unfold expire at h
      split at h
      · simp at h
      · split at h
        · simp_all
        · split at h <;> simp_all
    cases c with
    | frame g =>
      simp only [nextAmong, Waited.done.injEq, Arrival.mk.injEq, Option.some.injEq] at h
      right
      simp [← h.2.2]
    | stall => exact .inl (expired h)
    | delay d =>
      simp only [nextAmong] at h
      split at h
      · exact (ih h).imp id fun lt => Nat.lt_succ_of_lt lt
      · split at h
        · exact (ih h).imp id fun lt => Nat.lt_succ_of_lt lt
        · exact .inl (expired h)

theorem next_length {s : Source} {limit : Option Instant} {now finish : Instant} {f : Frame}
    {rest : Source} (h : s.next now limit = .done finish ⟨some f, rest⟩) (hf : f ≠ timedOut) :
    rest.chunks.length < s.chunks.length :=
  (nextAmong_length h).resolve_left hf

/-- Waits for the next data that is not empty: the data, the end, or the reason of a failure. -/
def nextData (s : Source) (now : Instant) (limit : Option Instant) :
    Waited (Option (Except String Bytes) × Source) :=
  match _h : s.next now limit with
  | .givenUp => .givenUp
  | .done now ⟨none, rest⟩ => .done now (none, rest)
  | .done now ⟨some (.failure reason), rest⟩ => .done now (some (.error reason), rest)
  | .done now ⟨some .trailers, rest⟩ => nextData rest now limit
  | .done now ⟨some (.data bytes), rest⟩ =>
    if bytes.isEmpty then nextData rest now limit else .done now (some (.ok bytes), rest)
termination_by s.chunks.length
decreasing_by all_goals exact next_length ‹_› (by simp [timedOut])

/-- Waits for all data up to the end, or for a failure. -/
def collect (s : Source) (now : Instant) (limit : Option Instant) (sofar : Bytes) :
    Waited (Except String Bytes × Source) :=
  match _h : s.next now limit with
  | .givenUp => .givenUp
  | .done now ⟨none, rest⟩ => .done now (.ok sofar, rest)
  | .done now ⟨some (.failure reason), rest⟩ => .done now (.error reason, rest)
  | .done now ⟨some .trailers, rest⟩ => collect rest now limit sofar
  | .done now ⟨some (.data bytes), rest⟩ => collect rest now limit (sofar ++ bytes)
termination_by s.chunks.length
decreasing_by all_goals exact next_length ‹_› (by simp [timedOut])

end Source

end Gatehouse
