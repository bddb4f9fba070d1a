import Gatehouse.Proofs.Body.Reading

/-!
# The content of bodies

The content of a body is what it gives the next hop: the bytes that it keeps, or else what it has yet
to give out. It does not depend on the pace of a stream. Whoever comes to the end of a body has got its
content, to capture a body keeps it, and to hand a body on passes it on.
-/

namespace Gatehouse

/-! ## Streams -/

namespace Source

variable {s rest : Source} {now finish : Instant} {wake limit : Option Instant}
  {chunks : List Chunk} {frame : Option Frame} {bytes sofar : Bytes} {f : Frame}

/-- All that a stream brings at its deadline is a failure. -/
theorem eq_timedOut_of_expire (h : expire s now limit = .done finish ⟨frame, rest⟩) :
    frame = some timedOut := by
  unfold expire at h
  split at h
  · cases h
  · split at h
    · cases h
      rfl
    · split at h <;> cases h
      rfl

/-- What a stream that is not given up brings of some chunks: the front of their data, or their end,
unless it fails. -/
theorem content_of_nextAmong (h : nextAmong s limit now wake chunks = .done finish ⟨frame, rest⟩) :
    (∀ f, frame = some f → f.Flows → f.bytes ++ rest.content = chunks.flatMap Chunk.bytes) ∧
    (frame = none → chunks.flatMap Chunk.bytes = []) := by
  -- of a failure nothing is to be shown
  have failing (hframe : frame = some timedOut) (data : Bytes) :
      (∀ f, frame = some f → f.Flows → f.bytes ++ rest.content = data) ∧
      (frame = none → data = []) := by
    subst hframe
    refine ⟨fun f hf hflows => ?_, nofun⟩
    cases hf
    exact hflows.elim
  induction chunks generalizing now wake with
  | nil =>
    cases h
    exact ⟨nofun, fun _ => rfl⟩
  | cons c chunks ih =>
    cases c with
    | frame g =>
      cases h
      refine ⟨fun f hf _ => ?_, nofun⟩
      cases hf
      rfl
    | stall => exact failing (eq_timedOut_of_expire h) _
    | delay d =>
      simp only [nextAmong] at h
      split at h
      · exact ih h
      · split at h
        · exact ih h
        · exact failing (eq_timedOut_of_expire h) _

theorem content_of_next (h : s.next now limit = .done finish ⟨some f, rest⟩) (hflows : f.Flows) :
    f.bytes ++ rest.content = s.content :=
  (content_of_nextAmong h).1 f rfl hflows

theorem content_of_end (h : s.next now limit = .done finish ⟨none, rest⟩) : s.content = [] :=
  (content_of_nextAmong h).2 rfl

/-- A reader that comes to the end of a stream has got all of it. -/
theorem eq_of_collect (h : s.collect now limit sofar = .done finish (.ok bytes, rest)) :
    bytes = sofar ++ s.content := by
  fun_induction collect s now limit sofar with
  | case1 => cases h
  | case2 s now sofar finish' rest' hnext =>
    cases h
    rw [content_of_end hnext, List.append_nil]
  | case3 => cases h
  | case4 s now sofar finish' rest' hnext ih =>
    rw [ih h, ← content_of_next hnext trivial]
    rfl
  | case5 s now sofar finish' rest' data hnext ih =>
    rw [ih h, ← content_of_next hnext trivial, List.append_assoc]
    rfl

theorem collect_ofBytes (bytes : Bytes) (now : Instant) (limit : Option Instant) :
    ∃ rest, (ofBytes bytes).collect now limit [] = .done now (.ok bytes, rest) := by
  by_cases h : bytes.isEmpty
  · rw [List.isEmpty_iff.mp h]
    exact ⟨_, by simp [ofBytes, collect, next, nextAmong]; rfl⟩
  · rw [ofBytes, if_neg h]
    exact ⟨_, by simp [collect, next, nextAmong]; rfl⟩

end Source

/-! ## Bodies -/

namespace Body

variable {b after : Body} {now finish : Instant} {limit : Option Instant} {bytes : Bytes}

/-- What a body gives the next hop. -/
def content (b : Body) : Bytes := b.captured.getD b.left

theorem content_of_captured (h : b.captured = some bytes) : b.content = bytes := by
  rw [content, h, Option.getD_some]

theorem content_of_not_captured (h : b.captured = none) : b.content = b.left := by
  rw [content, h, Option.getD_none]

theorem content_ofBytes (bytes : Bytes) : (ofBytes bytes).content = bytes := by
  rw [content_of_not_captured rfl]
  exact Source.content_ofBytes bytes

/-- Whoever comes to the end of a body that is not captured has got its content. -/
theorem eq_content_of_readAll (hcaptured : b.captured = none)
    (h : b.readAll now limit = (.done finish (.ok bytes), after)) : bytes = b.content := by
  rw [content_of_not_captured hcaptured]
  simp only [readAll, hcaptured] at h
  split at h
  · next hsource =>
    cases h
    simp only [left, hsource, Option.map_none, Option.getD_none, List.append_nil]
  · next source hsource =>
    have hcollect : ∃ rest, source.collect now limit b.pending = .done finish (.ok bytes, rest) := by
      split at h
      · cases h
      · next hcollect => cases h; exact ⟨_, hcollect⟩
      · cases h
    obtain ⟨rest, hcollect⟩ := hcollect
    rw [Source.eq_of_collect hcollect, left, hsource, Option.map_some, Option.getD_some]

/-- To capture a body keeps its content. -/
theorem content_of_capture (h : b.capture now limit = (.done finish (.ok ()), after)) :
    after.content = b.content := by
  rw [capture] at h
  split at h
  · cases h
    rfl
  · cases h
    rfl
  · next source hcaptured hsource =>
    split at h
    · cases h
    · cases h
    · next bytes _ hcollect =>
      cases h
      rw [content_of_captured rfl, content_of_not_captured hcaptured, Source.eq_of_collect hcollect,
        left, hsource, Option.map_some, Option.getD_some]

/-- The next hop gets the content of a body. -/
theorem content_forward (b : Body) : b.forward.1.content = b.content := by
  cases h : b.captured with
  | some bytes =>
    simp only [forward, h, content_ofBytes, content_of_captured h]
  | none =>
    simp only [forward, h, content_of_not_captured h]
    rfl

/-- Whether a body can be read to its end from an instant on. -/
def Readable (b : Body) (now : Instant) (limit : Option Instant) : Prop :=
  ∃ finish bytes after, b.readAll now limit = (.done finish (.ok bytes), after)

theorem readable_ofBytes (bytes : Bytes) (now : Instant) (limit : Option Instant) :
    (ofBytes bytes).Readable now limit := by
  obtain ⟨rest, hcollect⟩ := Source.collect_ofBytes bytes now limit
  refine ⟨now, bytes, { ofBytes bytes with pending := [], source := none }, ?_⟩
  simp only [readAll, ofBytes, ofSource]
  simp only [hcollect]

/-- What is handed on can be read if the body can. -/
theorem Readable.forward (h : b.Readable now limit) : b.forward.1.Readable now limit := by
  cases hcaptured : b.captured with
  | some bytes =>
    simp only [Body.forward, hcaptured]
    exact readable_ofBytes bytes now limit
  | none =>
    obtain ⟨finish, bytes, after, hread⟩ := h
    simp only [readAll, hcaptured] at hread
    simp only [Readable, Body.forward, hcaptured, readAll]
    cases hsource : b.source with
    | none => exact ⟨_, _, _, rfl⟩
    | some source =>
      simp only [hsource] at hread
      split at hread
      · cases hread
      · next hcollect =>
        simp only [hcollect]
        exact ⟨_, _, _, rfl⟩
      · cases hread

/-- To capture a body changes nothing, or it keeps the content, which can be read then. -/
theorem capture_cases (h : b.capture now limit = (.done finish (.ok ()), after)) :
    (finish = now ∧ after = b) ∨ (after.captured = some b.content ∧ b.Readable now limit) := by
  have hcontent := content_of_capture h
  rw [capture] at h
  split at h
  · cases h
    exact .inl ⟨rfl, rfl⟩
  · cases h
    exact .inl ⟨rfl, rfl⟩
  · next source hcaptured hsource =>
    split at h
    · cases h
    · cases h
    · next bytes rest hcollect =>
      cases h
      refine .inr ⟨?_, ?_⟩
      · rw [← hcontent, content_of_captured rfl]
      · refine ⟨finish, bytes, { b with pending := [], source := none }, ?_⟩
        simp only [readAll, hcaptured, hsource, hcollect]

end Body

end Gatehouse
