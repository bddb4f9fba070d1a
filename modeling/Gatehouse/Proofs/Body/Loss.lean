import Gatehouse.Proofs.Body.Content

/-!
# What a failed capture loses

A body is forthright about bytes that it has yet to give out if no operation succeeds as it would
without them: a capture keeps them, and an end comes behind them only. Every body that is not captured
is forthright about what is left of it, and a reading that fails leaves it so. A capture that fails
or is given up does not: it has taken what was left out of the body, which from then on answers
everything as an empty body does.
-/

namespace Gatehouse

/-! ## Streams that fail -/

namespace Source

variable {s rest : Source} {now finish : Instant} {wake limit : Option Instant}
  {chunks : List Chunk} {frame : Option Frame} {reason : String}

/-- A stream that comes to its deadline stays as it is. -/
theorem rest_of_expire (h : expire s now limit = .done finish ⟨frame, rest⟩) : rest = s := by
  unfold expire at h
  split at h
  · cases h
  · split at h
    · cases h
      rfl
    · split at h <;> cases h
      rfl

/-- Behind a failure is all that was there before it. -/
theorem content_of_nextAmong_failure
    (h : nextAmong s limit now wake chunks = .done finish ⟨some (.failure reason), rest⟩) :
    rest.content = chunks.flatMap Chunk.bytes := by
  induction chunks generalizing now wake with
  | nil => cases h
  | cons c chunks ih =>
    cases c with
    | frame g =>
      cases h
      rfl
    | stall =>
      rw [rest_of_expire h]
      rfl
    | delay d =>
      simp only [nextAmong] at h
      split at h
      · exact ih h
      · split at h
        · exact ih h
        · rw [rest_of_expire h]
          rfl

/-- What a stream with some data brings, and the data behind it: the front of it or its end. A failure
takes nothing away. -/
def Brings (content rest : Bytes) : Option (Except String Bytes) → Prop
  | none => content = []
  | some (.ok bytes) => bytes ≠ [] ∧ bytes ++ rest = content
  | some (.error _) => rest = content

theorem brings_of_nextData {result : Option (Except String Bytes)}
    (h : s.nextData now limit = .done finish (result, rest)) :
    Brings s.content rest.content result := by
  fun_induction nextData s now limit with
  | case1 => cases h
  | case2 s now finish' rest' hnext =>
    cases h
    exact content_of_end hnext
  | case3 s now finish' reason rest' hnext =>
    cases h
    exact content_of_nextAmong_failure hnext
  | case4 s now finish' rest' hnext ih =>
    rw [← content_of_next hnext trivial]
    exact ih h
  | case5 s now finish' rest' bytes hnext hempty ih =>
    rw [← content_of_next hnext trivial, Frame.bytes, List.isEmpty_iff.mp hempty]
    exact ih h
  | case6 s now finish' rest' bytes hnext hne =>
    cases h
    exact ⟨fun hnil => hne (List.isEmpty_iff.mpr hnil), content_of_next hnext trivial⟩

end Source

namespace Body

/-- Whether nothing that a body does hides that some bytes are missing, which it has yet to give out:
where a capture succeeds it keeps them, and an end comes behind them only, both here and at the next
hop. -/
structure Forthright (b : Body) (missing : Bytes) : Prop where
  capture : ∀ now limit finish after, b.capture now limit = (.done finish (.ok ()), after) →
    after.captured.getD [] = missing
  read : ∀ size now limit finish after, size ≠ 0 →
    b.read size now limit = (.done finish (.ok []), after) → missing = []
  next : ∀ now limit finish after, b.next now limit = (.done finish none, after) → missing = []
  readAll : ∀ now limit finish bytes after,
    b.readAll now limit = (.done finish (.ok bytes), after) → bytes = missing
  forward : ∀ now limit finish bytes after,
    b.forward.1.readAll now limit = (.done finish (.ok bytes), after) → bytes = missing
  forwardEnd : b.forward.1.isEndStream = true → missing = []

variable {b after : Body} {now finish : Instant} {limit : Option Instant} {size : Nat}

/-! ## Bodies that are not captured -/

theorem left_of_source {source : Source} (hpending : b.pending = [])
    (hsource : b.source = some source) : b.left = source.content := by
  rw [left, hpending, hsource]
  rfl

/-- What reading on in a body that is not captured brings is the front of what is left. -/
theorem brings_of_next {result : Option (Except String Bytes)} (hcaptured : b.captured = none)
    (h : b.next now limit = (.done finish result, after)) :
    Source.Brings b.left after.left result ∧ after.captured = none := by
  simp only [Body.next, hcaptured] at h
  split at h
  · next hpending =>
    cases h
    exact ⟨⟨by simpa using hpending, rfl⟩, rfl⟩
  · next hpending =>
    have hempty : b.pending = [] := by simpa using hpending
    split at h
    · next hsource =>
      cases h
      refine ⟨?_, hcaptured⟩
      rw [Source.Brings, left, hempty, hsource]
      rfl
    · next source hsource =>
      have hleft := left_of_source hempty hsource
      split at h
      · cases h
      · next hnext =>
        cases h
        exact ⟨hleft.trans (Source.brings_of_nextData hnext), rfl⟩
      · next chunk rest hnext =>
        cases h
        have hbrings := Source.brings_of_nextData hnext
        have hrest : Body.left { b with source := some rest, captured := none } = rest.content :=
          left_of_source hempty rfl
        refine ⟨?_, rfl⟩
        rw [hleft, hrest]
        exact hbrings

theorem left_of_read_end (hcaptured : b.captured = none) (hsize : size ≠ 0)
    (h : b.read size now limit = (.done finish (.ok []), after)) : b.left = [] := by
  simp only [Body.read, if_neg hsize, hcaptured] at h
  split at h
  · cases h
  · next hnext => exact (brings_of_next hcaptured hnext).1
  · cases h
  · next bytes mid hnext =>
    -- bytes that are there are not all taken away
    have htaken : bytes.take size = [] := by
      rw [Prod.mk.injEq, Waited.done.injEq, Except.ok.injEq] at h
      exact h.1.2
    rw [List.take_eq_nil_iff] at htaken
    exact absurd (htaken.resolve_left hsize) (brings_of_next hcaptured hnext).1.1

/-- What is kept by a capture that has a source is what is left. -/
theorem captured_of_capture (hcaptured : b.captured = none) (hsource : b.source ≠ none)
    (h : b.capture now limit = (.done finish (.ok ()), after)) : after.captured = some b.left := by
  have hcontent := content_of_capture h
  rw [content_of_not_captured hcaptured] at hcontent
  obtain ⟨source, hsource⟩ := Option.ne_none_iff_exists'.mp hsource
  simp only [Body.capture, hcaptured, hsource] at h
  split at h
  · cases h
  · cases h
  · cases h
    rw [← hcontent, content_of_captured rfl]

/-- A body that is not captured is forthright about what is left of it. -/
theorem forthright_left (hcaptured : b.captured = none) (hsource : b.source ≠ none) :
    Forthright b b.left where
  capture now limit finish after h := by
    rw [captured_of_capture hcaptured hsource h, Option.getD_some]
  read size now limit finish after hsize h := left_of_read_end hcaptured hsize h
  next now limit finish after h := (brings_of_next hcaptured h).1
  readAll now limit finish bytes after h := by
    rw [eq_content_of_readAll hcaptured h, content_of_not_captured hcaptured]
  forward now limit finish bytes after h := by
    have hforward : b.forward.1.captured = none := by simp only [Body.forward, hcaptured]
    rw [eq_content_of_readAll hforward h, content_forward, content_of_not_captured hcaptured]
  forwardEnd h := by
    obtain ⟨source, hsource⟩ := Option.ne_none_iff_exists'.mp hsource
    simp [Body.forward, hcaptured, hsource, isEndStream] at h

/-- Only a body with a source keeps its reader waiting or fails, and then it has its source still. -/
theorem source_of_next_failed {ended : Waited (Option (Except String Bytes))}
    (hcaptured : b.captured = none) (h : b.next now limit = (ended, after))
    (hfails : ended = .givenUp ∨ ∃ finish reason, ended = .done finish (some (.error reason))) :
    after.captured = none ∧ after.source ≠ none ∧ after.left = b.left := by
  rcases hfails with rfl | ⟨finish, reason, rfl⟩
  · -- given up: the body is as it was
    simp only [Body.next, hcaptured] at h
    split at h
    · cases h
    · split at h
      · cases h
      · next source hsource =>
        split at h
        · cases h
          exact ⟨hcaptured, by rw [hsource]; exact Option.some_ne_none source, rfl⟩
        · cases h
        · cases h
  · -- failed: the source is put back behind the failure
    obtain ⟨hleft, hafter⟩ := brings_of_next hcaptured h
    refine ⟨hafter, ?_, hleft⟩
    simp only [Body.next, hcaptured] at h
    split at h
    · cases h
    · split at h
      · cases h
      · split at h
        · cases h
        · cases h
        · cases h
          exact Option.some_ne_none _

/-- A reading that fails or is given up takes nothing away, and the body stays forthright. -/
theorem forthright_of_read_failed {ended : Waited (Except Error Bytes)}
    (hcaptured : b.captured = none) (hread : b.read size now limit = (ended, after))
    (hfails : ∀ finish bytes, ended ≠ .done finish (.ok bytes)) : Forthright after b.left := by
  have hkept : after.captured = none ∧ after.source ≠ none ∧ after.left = b.left := by
    rw [Body.read] at hread
    split at hread
    · cases hread
      exact absurd rfl (hfails _ _)
    · simp only [hcaptured] at hread
      split at hread
      · next hnext =>
        cases hread
        exact source_of_next_failed hcaptured hnext (.inl rfl)
      · cases hread
        exact absurd rfl (hfails _ _)
      · next hnext =>
        cases hread
        exact source_of_next_failed hcaptured hnext (.inr ⟨_, _, rfl⟩)
      · cases hread
        exact absurd rfl (hfails _ _)
  obtain ⟨hafter, hsource, hleft⟩ := hkept
  rw [← hleft]
  exact forthright_left hafter hsource

/-! ## A capture that fails -/

/-- Whether a body has nothing to give out, and does not say why. -/
structure Spent (b : Body) : Prop where
  captured : b.captured = none
  source : b.source = none
  pending : b.pending = []

theorem Spent.left_eq_nil (h : Spent b) : b.left = [] := by
  rw [left, h.pending, h.source]
  rfl

/-- A capture that fails or is given up leaves nothing. -/
theorem spent_of_capture_failed {ended : Waited (Except Error Unit)}
    (hcapture : b.capture now limit = (ended, after))
    (hfails : ∀ finish, ended ≠ .done finish (.ok ())) :
    b.captured = none ∧ b.source ≠ none ∧ after = { b with source := none, pending := [] } := by
  rw [Body.capture] at hcapture
  split at hcapture
  · cases hcapture
    exact absurd rfl (hfails now)
  · cases hcapture
    exact absurd rfl (hfails now)
  · next source hcaptured hsource =>
    refine ⟨hcaptured, by rw [hsource]; exact Option.some_ne_none source, ?_⟩
    split at hcapture
    · cases hcapture
      rfl
    · cases hcapture
      rfl
    · cases hcapture
      exact absurd rfl (hfails _)

theorem Spent.close (h : Spent b) : b.close.Spent := by
  rw [Body.close]
  split
  · exact h
  · exact ⟨h.captured, rfl, rfl⟩

/-- What is handed on is declared to be empty. -/
theorem Spent.forward (h : Spent b) :
    b.forward.1.Spent ∧ b.forward.1.length = some 0 ∧ b.forward.2.Spent := by
  simp only [Body.forward, h.captured, h.source, h.pending, Option.isNone_none, List.isEmpty_nil,
    Bool.and_self, if_true]
  exact ⟨⟨rfl, rfl, rfl⟩, trivial, ⟨rfl, rfl, rfl⟩⟩

theorem Spent.next_eq (h : Spent b) (now : Instant) (limit : Option Instant) :
    b.next now limit = (.done now none, b) := by
  simp only [Body.next, h.captured, h.pending, h.source, List.isEmpty_nil, Bool.not_true,
    Bool.false_eq_true, if_false]

theorem Spent.readAll_eq (h : Spent b) (now : Instant) (limit : Option Instant) :
    b.readAll now limit = (.done now (.ok []), { b with pending := [] }) := by
  simp only [Body.readAll, h.captured, h.source, h.pending]

theorem Spent.capture_eq (h : Spent b) (now : Instant) (limit : Option Instant) :
    b.capture now limit = (.done now (.ok ()), b) := by
  simp only [Body.capture, h.captured, h.source]

/-- What a spent body answers: nothing, but no error either. -/
theorem Spent.answer (h : Spent b) (now : Instant) (ask : Ask) :
    ∃ a after, b.answer? now ask = some (a, after) ∧ after.Spent ∧ a.bytes = [] ∧
      ∀ handed, a.handed = some handed → handed.Spent ∧ handed.length = some 0 := by
  have hnone : ∀ handed, (none : Option Body) = some handed →
      handed.Spent ∧ handed.length = some 0 := by
    intro handed heq
    cases heq
  cases ask with
  | read size =>
    refine ⟨⟨[], size != 0 && true, none⟩, b, ?_, h, rfl, hnone⟩
    by_cases hsize : size = 0
    · simp only [answer?, Body.read, if_pos hsize, List.isEmpty_nil]
    · simp only [answer?, Body.read, if_neg hsize, h.captured, h.next_eq, List.isEmpty_nil]
  | readAll =>
    refine ⟨⟨[], true, none⟩, { b with pending := [] }, ?_, ⟨h.captured, h.source, rfl⟩, rfl, hnone⟩
    simp only [answer?, h.readAll_eq]
  | next => exact ⟨⟨[], true, none⟩, b, by simp only [answer?, h.next_eq], h, rfl, hnone⟩
  | capture => exact ⟨{}, b, by simp only [answer?, h.capture_eq], h, rfl, hnone⟩
  | close => exact ⟨{}, b.close, rfl, h.close, rfl, hnone⟩
  | forward =>
    obtain ⟨hhanded, hlength, hafter⟩ := h.forward
    refine ⟨{ handed := some b.forward.1 }, b.forward.2, rfl, hafter, rfl, ?_⟩
    rintro handed heq
    cases heq
    exact ⟨hhanded, hlength⟩

/-- Whatever is asked of a spent body, it gives out nothing, keeps nothing and hands nothing on. -/
theorem Spent.answers (h : Spent b) (asks : List (Instant × Ask)) :
    ∃ answers after, b.answers? asks = some (answers, after) ∧ after.Spent ∧
      delivered answers = [] ∧
      ∀ a ∈ answers, ∀ handed, a.handed = some handed → handed.Spent ∧ handed.length = some 0 := by
  -- on the asks: each leaves the body spent
  induction asks generalizing b with
  | nil => exact ⟨[], b, rfl, h, rfl, nofun⟩
  | cons ask asks ih =>
    obtain ⟨a, mid, ha, hmid, hbytes, hhanded⟩ := h.answer ask.1 ask.2
    obtain ⟨answers, after, hrest, hafter, hdelivered, hall⟩ := ih hmid
    refine ⟨a :: answers, after, answers?_cons ha hrest, hafter, ?_, ?_⟩
    · rw [delivered_cons, hbytes, hdelivered]
      rfl
    · exact List.forall_mem_cons.mpr ⟨hhanded, hall⟩

/-- A spent body is forthright only if nothing is missing. -/
theorem Spent.forthright_iff (h : Spent b) (missing : Bytes) :
    Forthright b missing ↔ missing = [] := by
  constructor
  · -- the end that reading on comes to at once gives it away
    intro hforthright
    exact hforthright.next 0 none 0 b (h.next_eq 0 none)
  · rintro rfl
    constructor
    · intro now limit finish after hcapture
      cases (h.capture_eq now limit).symm.trans hcapture
      rw [h.captured, Option.getD_none]
    · exact fun _ _ _ _ _ _ _ => rfl
    · exact fun _ _ _ _ _ => rfl
    · intro now limit finish bytes after hread
      cases (h.readAll_eq now limit).symm.trans hread
      rfl
    · intro now limit finish bytes after hread
      cases (h.forward.1.readAll_eq now limit).symm.trans hread
      rfl
    · exact fun _ => rfl

/-- **What a failed capture loses.** A body whose capture fails or is given up was forthright about what
was left of it. From then on it answers everything: it gives out nothing, keeps nothing, and hands on
bodies that are declared to be empty. So it is forthright, then and after any further asks, exactly if
nothing was left. -/
theorem forthright_after_failed_capture_iff {ended : Waited (Except Error Unit)}
    (hcapture : b.capture now limit = (ended, after))
    (hfails : ∀ finish, ended ≠ .done finish (.ok ())) :
    Forthright b b.left ∧
    ∀ asks : List (Instant × Ask), ∃ answers later, after.answers? asks = some (answers, later) ∧
      delivered answers = [] ∧ later.captured = none ∧
      (∀ a ∈ answers, ∀ handed, a.handed = some handed →
        handed.left = [] ∧ handed.length = some 0) ∧
      (Forthright later b.left ↔ b.left = []) := by
  obtain ⟨hcaptured, hsource, rfl⟩ := spent_of_capture_failed hcapture hfails
  have hspent : Spent { b with source := none, pending := [] } := ⟨hcaptured, rfl, rfl⟩
  refine ⟨forthright_left hcaptured hsource, fun asks => ?_⟩
  obtain ⟨answers, later, hanswers, hlater, hdelivered, hhanded⟩ := hspent.answers asks
  refine ⟨answers, later, hanswers, hdelivered, hlater.captured, fun a ha handed heq => ?_,
    hlater.forthright_iff b.left⟩
  obtain ⟨hnothing, hlength⟩ := hhanded a ha handed heq
  exact ⟨hnothing.left_eq_nil, hlength⟩

/-! ## A stream that is reset -/

/-- A stream of four bytes that fails in the middle. -/
def resetStream : Source where
  chunks := [.frame (.data [0x61, 0x62]), .frame (.failure "reset"), .frame (.data [0x63, 0x64])]

theorem capture_resetStream :
    (ofSource resetStream none).capture 0 none =
      (.done 0 (.error (.body "reset")), { source := none }) := by
  cbv

/-- All four bytes are lost, whatever is asked first. -/
theorem forthright_after_failed_capture_iff_reset :
    let body := ofSource resetStream none
    (∃ after, body.capture 0 none = (.done 0 (.error (.body "reset")), after)) ∧
    Forthright body [0x61, 0x62, 0x63, 0x64] ∧
    ¬ Forthright { source := none } [0x61, 0x62, 0x63, 0x64] := by
  intro body
  obtain ⟨hbefore, hafter⟩ := forthright_after_failed_capture_iff capture_resetStream nofun
  obtain ⟨_, _, hnone, -, -, -, hiff⟩ := hafter []
  cases hnone
  refine ⟨⟨_, capture_resetStream⟩, hbefore, fun hforthright => ?_⟩
  exact absurd (hiff.mp hforthright) (by decide)

/-- A second capture succeeds and keeps nothing, and a reader gets a clean end instead of four bytes. -/
theorem failed_capture_hides_loss :
    let body := ofSource resetStream none
    body.left = [0x61, 0x62, 0x63, 0x64] ∧
    ∃ after, body.capture 0 none = (.done 0 (.error (.body "reset")), after) ∧
      after.capture 0 none = (.done 0 (.ok ()), after) ∧ after.captured = none ∧
      (after.readAll 0 none).1.value? = some (.ok []) ∧
      (after.read 8 0 none).1.value? = some (.ok []) ∧
      after.forward.1.isEndStream = true := by
  refine ⟨by decide, { source := none }, capture_resetStream, rfl, rfl, rfl, rfl, rfl⟩

end Body

end Gatehouse
