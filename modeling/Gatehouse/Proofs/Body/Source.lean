import Gatehouse.Body.Source

/-!
# Streams that go on to their end

A stream flows if it neither fails nor stalls. Whatever its pace, a reader who waits gets all its
data in order: `next` brings the next frame, `nextData` the next bytes and `collect` all of them, and
each leaves exactly what it did not bring.
-/

namespace Gatehouse

/-- The data of a frame. -/
def Frame.bytes : Frame → Bytes
  | .data bytes => bytes
  | .trailers => []
  | .failure _ => []

/-- The data of a chunk. -/
def Chunk.bytes : Chunk → Bytes
  | .frame f => f.bytes
  | .delay _ => []
  | .stall => []

/-- Whether a frame is no failure. -/
def Frame.Flows : Frame → Prop
  | .failure _ => False
  | _ => True

/-- Whether a chunk neither fails nor stalls. -/
def Chunk.Flows : Chunk → Prop
  | .frame f => f.Flows
  | .delay _ => True
  | .stall => False

namespace Source

variable {s : Source} {now : Instant}

/-- All data of a stream. -/
def content (s : Source) : Bytes := s.chunks.flatMap Chunk.bytes

/-- A stream that neither fails nor stalls: it may take its time as long as no deadline is set. -/
structure Flows (s : Source) : Prop where
  chunks : ∀ c ∈ s.chunks, c.Flows
  unhurried : ∀ d, .delay d ∈ s.chunks → s.deadline = none

/-- What is left of a stream flows if the stream does. -/
theorem Flows.of_subset (h : s.Flows) {chunks : List Chunk} (hsub : chunks ⊆ s.chunks)
    (wake : Option Instant) : Flows { s with chunks, wake } where
  chunks c hc := h.chunks c (hsub hc)
  unhurried d hd := h.unhurried d (hsub hd)

theorem flows_ofBytes (bytes : Bytes) : Flows (ofBytes bytes) where
  chunks c hc := by
    simp only [ofBytes] at hc
    split at hc
    · cases hc
    · rw [List.mem_singleton.mp hc]
      trivial
  unhurried _ _ := rfl

theorem content_ofBytes (bytes : Bytes) : content (ofBytes bytes) = bytes := by
  by_cases h : bytes.isEmpty
  · rw [content, ofBytes, if_pos h, List.isEmpty_iff.mp h]
    rfl
  · rw [content, ofBytes, if_neg h]
    exact List.append_nil bytes

/-- What arrives of a flowing stream: a frame and what follows it, or the end when nothing is
left. -/
structure Arrives (content : Bytes) (a : Arrival) : Prop where
  rest : a.rest.Flows
  frame : ∀ f, a.frame = some f → f.Flows ∧ f.bytes ++ a.rest.content = content
  ending : a.frame = none → content = []

theorem arrives_nextAmong (h : s.Flows) {chunks : List Chunk} (hsub : chunks ⊆ s.chunks)
    (wake : Option Instant) :
    ∃ finish a, nextAmong s none now wake chunks = .done finish a ∧
      Arrives (chunks.flatMap Chunk.bytes) a := by
  induction chunks generalizing now wake with
  | nil => exact ⟨_, _, rfl, h.of_subset hsub none, (fun _ hf => nomatch hf), fun _ => rfl⟩
  | cons c chunks ih =>
    obtain ⟨hc, hsub'⟩ := List.cons_subset.mp hsub
    have hflows := h.chunks c hc
    cases c with
    | frame f =>
      refine ⟨_, _, rfl, h.of_subset hsub' none, ?_, fun hf => nomatch hf⟩
      intro g hg
      cases hg
      exact ⟨hflows, rfl⟩
    | stall => exact hflows.elim
    | delay d =>
      -- nobody gives the reader up, so the delay is over at some instant
      have hdeadline := h.unhurried d hc
      simp only [nextAmong, hdeadline, comesBefore, Option.all_none, Bool.and_true, if_true]
      split
      · exact ih hsub' none
      · exact ih hsub' none

theorem next_ne_givenUp (h : s.Flows) : s.next now none ≠ .givenUp := by
  obtain ⟨finish, a, hnext, -⟩ := arrives_nextAmong h (List.Subset.refl _) s.wake
  intro hgone
  rw [next, hnext] at hgone
  cases hgone

theorem arrives_next {finish : Instant} {a : Arrival} (h : s.Flows)
    (hnext : s.next now none = .done finish a) : Arrives s.content a := by
  obtain ⟨finish', a', hnext', ha⟩ := arrives_nextAmong h (List.Subset.refl _) s.wake
  rw [next, hnext'] at hnext
  cases hnext
  exact ha

/-- The next data of a flowing stream is the first that is not empty, or the stream is at its
end. -/
theorem nextData_of_flows (h : s.Flows) (now : Instant) :
    (∃ finish rest, s.nextData now none = .done finish (none, rest) ∧ s.content = []) ∨
    ∃ finish bytes rest, s.nextData now none = .done finish (some (.ok bytes), rest) ∧
      bytes ≠ [] ∧ rest.Flows ∧ bytes ++ rest.content = s.content := by
  fun_induction nextData s now none with
  | case1 s now hnext =>
    exact absurd hnext (next_ne_givenUp h)
  | case2 s now finish rest hnext =>
    have ha := arrives_next h hnext
    exact .inl ⟨_, _, rfl, ha.ending rfl⟩
  | case3 s now finish reason rest hnext =>
    exact ((arrives_next h hnext).frame _ rfl).1.elim
  | case4 s now finish rest hnext ih =>
    have ha := arrives_next h hnext
    rw [← (ha.frame _ rfl).2]
    exact ih ha.rest
  | case5 s now finish rest bytes hnext hempty ih =>
    have ha := arrives_next h hnext
    rw [← (ha.frame _ rfl).2, Frame.bytes, List.isEmpty_iff.mp hempty]
    exact ih ha.rest
  | case6 s now finish rest bytes hnext hne =>
    have ha := arrives_next h hnext
    refine .inr ⟨_, _, _, rfl, ?_, ha.rest, (ha.frame _ rfl).2⟩
    exact fun hnil => hne (List.isEmpty_iff.mpr hnil)

/-- A reader of all data of a flowing stream gets all of it. -/
theorem collect_of_flows (h : s.Flows) (now : Instant) (sofar : Bytes) :
    ∃ finish rest, s.collect now none sofar = .done finish (.ok (sofar ++ s.content), rest) := by
  fun_induction collect s now none sofar with
  | case1 s now sofar hnext =>
    exact absurd hnext (next_ne_givenUp h)
  | case2 s now sofar finish rest hnext =>
    have ha := arrives_next h hnext
    rw [ha.ending rfl, List.append_nil]
    exact ⟨_, _, rfl⟩
  | case3 s now sofar finish reason rest hnext =>
    exact ((arrives_next h hnext).frame _ rfl).1.elim
  | case4 s now sofar finish rest hnext ih =>
    have ha := arrives_next h hnext
    rw [← (ha.frame _ rfl).2]
    exact ih ha.rest
  | case5 s now sofar finish rest bytes hnext ih =>
    have ha := arrives_next h hnext
    rw [← (ha.frame _ rfl).2, ← List.append_assoc]
    exact ih ha.rest

end Source

end Gatehouse
