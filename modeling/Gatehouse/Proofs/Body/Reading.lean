import Gatehouse.Body.Basic
import Gatehouse.Proofs.Body.Source

/-!
# Reading bodies

`Ask` is what can be asked of a body and `answers?` what it answers to a sequence of asks, however
long each takes. A body that is not captured gives out what is left of it, once (`Streaming`); a
captured one gives out its bytes in every cycle (`Keeps`). Each has one lemma for a single ask and
one for a sequence of them.
-/

namespace Gatehouse.Body

/-- What can be asked of a body. -/
inductive Ask
  /-- At most so many bytes. -/
  | read (size : Nat)
  | readAll
  /-- The next bytes, as many as are there. -/
  | next
  | capture
  | close
  | forward
  deriving DecidableEq, Repr

/-- Whether an ask only reads. -/
def Ask.IsReading : Ask → Prop
  | .read _ | .readAll | .next => True
  | .capture | .close | .forward => False

/-- What a body answers. -/
structure Answer where
  /-- The bytes that are read. -/
  bytes : Bytes := []
  /-- Whether a cycle of reading ends with these bytes. -/
  ends : Bool := false
  /-- The body for the next hop. -/
  handed : Option Body := none

/-- The answer to an ask at an instant, with the body as it is then; none if the ask fails or is
given up. A reading of no bytes ends no cycle if none were asked for. -/
def answer? (b : Body) (now : Instant) : Ask → Option (Answer × Body)
  | .read size =>
    match b.read size now none with
    | (.done _ (.ok bytes), b) => some ({ bytes, ends := size != 0 && bytes.isEmpty }, b)
    | _ => none
  | .readAll =>
    match b.readAll now none with
    | (.done _ (.ok bytes), b) => some ({ bytes, ends := true }, b)
    | _ => none
  | .next =>
    match b.next now none with
    | (.done _ (some (.ok bytes)), b) => some ({ bytes }, b)
    | (.done _ none, b) => some ({ ends := true }, b)
    | _ => none
  | .capture =>
    match b.capture now none with
    | (.done _ (.ok ()), b) => some ({}, b)
    | _ => none
  | .close => some ({}, b.close)
  | .forward => some ({ handed := some b.forward.1 }, b.forward.2)

/-- The answers to asks at some instants, with the body as it is then. -/
def answers? (b : Body) : List (Instant × Ask) → Option (List Answer × Body)
  | [] => some ([], b)
  | (now, ask) :: asks => do
    let (answer, b) ← b.answer? now ask
    let (answers, b) ← answers? b asks
    return (answer :: answers, b)

/-- The bytes that some answers deliver. -/
def delivered (answers : List Answer) : Bytes := answers.flatMap Answer.bytes

/-- The bytes of each cycle that ends within some answers, the first of which has begun with some
bytes already. -/
def cycles (sofar : Bytes) : List Answer → List Bytes
  | [] => []
  | a :: answers =>
    if a.ends then (sofar ++ a.bytes) :: cycles [] answers else cycles (sofar ++ a.bytes) answers

variable {b after : Body} {now : Instant} {ask : Ask} {asks : List (Instant × Ask)}
  {a : Answer} {answers : List Answer}

theorem answers?_cons {b₁ : Body} (ha : b.answer? now ask = some (a, b₁))
    (hrest : b₁.answers? asks = some (answers, after)) :
    b.answers? ((now, ask) :: asks) = some (a :: answers, after) := by
  simp only [answers?, ha, hrest, Option.bind_eq_bind, Option.bind_some]
  rfl

theorem exists_of_answers?_cons (h : b.answers? ((now, ask) :: asks) = some (answers, after)) :
    ∃ a b₁ rest, b.answer? now ask = some (a, b₁) ∧ b₁.answers? asks = some (rest, after) ∧
      answers = a :: rest := by
  rw [answers?, Option.bind_eq_bind, Option.bind_eq_some_iff] at h
  obtain ⟨⟨a, b₁⟩, ha, h⟩ := h
  rw [Option.bind_eq_bind, Option.bind_eq_some_iff] at h
  obtain ⟨⟨rest, b₂⟩, hrest, h⟩ := h
  cases h
  exact ⟨a, b₁, rest, ha, hrest, rfl⟩

/-! ## A body that is not captured -/

/-- A body whose source flows and whose bytes are not kept. Without its source it has nothing
more. -/
structure Streaming (b : Body) : Prop where
  captured : b.captured = none
  flows : ∀ s, b.source = some s → s.Flows
  pending : b.source = none → b.pending = []

/-- What a body that is not captured has yet to give out. -/
def left (b : Body) : Bytes := b.pending ++ (b.source.map Source.content).getD []

theorem streaming_ofSource {s : Source} (h : s.Flows) (length : Option Nat) :
    Streaming (ofSource s length) where
  captured := rfl
  flows t ht := by
    cases ht
    exact h
  pending hnone := nomatch hnone

theorem left_ofSource (s : Source) (length : Option Nat) :
    (ofSource s length).left = s.content := rfl

theorem Streaming.left_of_source_none (h : Streaming b) (hs : b.source = none) : b.left = [] := by
  rw [left, h.pending hs, hs]
  rfl

/-- The next bytes of a body that is not captured, and what it is behind them. -/
structure Brings (b : Body) (bytes : Bytes) (after : Body) : Prop where
  nonempty : bytes ≠ []
  streaming : after.Streaming
  source : after.source ≠ none
  pending : after.pending = []
  closed : after.closed = b.closed
  left : bytes ++ after.left = b.left

/-- A body that is not captured brings its next bytes, or it is at its end. -/
theorem Streaming.next_cases (h : Streaming b) (now : Instant) :
    (∃ finish, b.next now none = (.done finish none, { b with source := none }) ∧ b.left = []) ∨
    ∃ finish bytes after, b.next now none = (.done finish (some (.ok bytes)), after) ∧
      Brings b bytes after := by
  by_cases hpending : b.pending = []
  · cases hs : b.source with
    | none =>
      have hsame : { b with source := none } = b := by rw [← hs]
      refine .inl ⟨now, ?_, h.left_of_source_none hs⟩
      rw [hsame]
      simp only [Body.next, h.captured, hpending, hs, List.isEmpty_nil, Bool.not_true,
        Bool.false_eq_true, if_false]
    | some s =>
      have hleft : b.left = s.content := by rw [left, hpending, hs]; rfl
      simp only [Body.next, h.captured, hpending, hs, List.isEmpty_nil, Bool.not_true,
        Bool.false_eq_true, if_false]
      rcases Source.nextData_of_flows (h.flows s hs) now with
        ⟨finish, rest, hnext, hcontent⟩ | ⟨finish, bytes, rest, hnext, hne, hrest, hcontent⟩
      · rw [hnext]
        exact .inl ⟨finish, rfl, hleft.trans hcontent⟩
      · rw [hnext]
        refine .inr ⟨finish, bytes, _, rfl, hne, ⟨rfl, ?_, nofun⟩, nofun, rfl, rfl, ?_⟩
        · intro t ht
          cases ht
          exact hrest
        · exact hcontent.trans hleft.symm
  · have hsource : b.source ≠ none := fun hs => hpending (h.pending hs)
    refine .inr ⟨now, b.pending, { b with pending := [] }, ?_, hpending, ⟨h.captured, h.flows, ?_⟩,
      hsource, rfl, rfl, rfl⟩
    · have hempty : b.pending.isEmpty = false := by simpa using hpending
      simp only [Body.next, h.captured, hempty, Bool.not_false, if_true]
    · exact fun _ => rfl

/-- What reading does to a body that is not captured: it gives out the front of what is left, and the
source is let go of where a cycle ends and nowhere else. -/
structure Reads (b : Body) (a : Answer) (after : Body) : Prop where
  streaming : after.Streaming
  closed : after.closed = b.closed
  bytes : a.bytes ++ after.left = b.left
  ended : a.ends = true → after.source = none
  going : a.ends = false → b.source ≠ none → after.source ≠ none

/-- At its end a body lets go of its source. -/
theorem Streaming.reads_end (h : Streaming b) (hleft : b.left = []) :
    Reads b { ends := true } { b with source := none } := by
  have hpending : b.pending = [] := (List.append_eq_nil_iff.mp hleft).1
  refine ⟨⟨h.captured, nofun, fun _ => hpending⟩, rfl, ?_, fun _ => rfl, nofun⟩
  rw [hleft, left, hpending]
  rfl

theorem Streaming.reads_next (h : Streaming b) (now : Instant) :
    ∃ a after, b.answer? now .next = some (a, after) ∧ Reads b a after := by
  rcases h.next_cases now with ⟨finish, hnext, hleft⟩ | ⟨finish, bytes, after, hnext, hb⟩
  · exact ⟨_, _, by simp only [answer?, hnext], h.reads_end hleft⟩
  · exact ⟨⟨bytes, false, none⟩, after, by simp only [answer?, hnext],
      hb.streaming, hb.closed, hb.left, nofun, fun _ _ => hb.source⟩

theorem Streaming.reads_read (h : Streaming b) (size : Nat) (now : Instant) :
    ∃ a after, b.answer? now (.read size) = some (a, after) ∧ Reads b a after := by
  by_cases hsize : size = 0
  · subst hsize
    exact ⟨_, _, rfl, h, rfl, rfl, nofun, fun _ hs => hs⟩
  · rcases h.next_cases now with ⟨finish, hnext, hleft⟩ | ⟨finish, bytes, after, hnext, hb⟩
    · refine ⟨_, _, ?_, h.reads_end hleft⟩
      simp only [answer?, Body.read, hsize, if_false, h.captured, hnext]
      simp [hsize]
    · -- what is not taken of the bytes waits in front of the source
      have hne : bytes.take size ≠ [] := by
        rw [Ne, List.take_eq_nil_iff, not_or]
        exact ⟨hsize, hb.nonempty⟩
      refine ⟨⟨bytes.take size, false, none⟩, { after with pending := bytes.drop size }, ?_,
        ⟨hb.streaming.captured, hb.streaming.flows, fun hs => absurd hs hb.source⟩, hb.closed, ?_,
        nofun, fun _ _ => hb.source⟩
      · simp only [answer?, Body.read, hsize, if_false, h.captured, hnext]
        simp [hsize, hne]
      · rw [← hb.left]
        simp only [left, hb.pending, List.nil_append]
        rw [← List.append_assoc, List.take_append_drop]

theorem Streaming.reads_readAll (h : Streaming b) (now : Instant) :
    ∃ a after, b.answer? now .readAll = some (a, after) ∧ Reads b a after := by
  cases hs : b.source with
  | none =>
    refine ⟨⟨b.pending, true, none⟩, { b with pending := [] }, ?_, ⟨h.captured, h.flows, fun _ => rfl⟩,
      rfl, ?_, fun _ => hs, nofun⟩
    · simp only [answer?, Body.readAll, h.captured, hs]
    · simp only [left, hs, List.nil_append]
  | some s =>
    obtain ⟨finish, rest, hcollect⟩ := Source.collect_of_flows (h.flows s hs) now b.pending
    refine ⟨⟨b.pending ++ s.content, true, none⟩, { b with source := none, pending := [] }, ?_,
      ⟨h.captured, nofun, fun _ => rfl⟩, rfl, ?_, fun _ => rfl, nofun⟩
    · simp only [answer?, Body.readAll, h.captured, hs, hcollect]
    · simp only [left, hs, Option.map_none, Option.map_some, Option.getD_none, Option.getD_some,
        List.append_nil]

/-- A body that is not captured answers every reading by the front of what is left. -/
theorem Streaming.reads (h : Streaming b) (hask : ask.IsReading) (now : Instant) :
    ∃ a after, b.answer? now ask = some (a, after) ∧ Reads b a after := by
  cases ask with
  | read size => exact h.reads_read size now
  | readAll => exact h.reads_readAll now
  | next => exact h.reads_next now
  | capture => exact hask.elim
  | close => exact hask.elim
  | forward => exact hask.elim

/-- Without its source a body brings nothing more. -/
theorem Reads.left_of_ends (h : Reads b a after) (hends : a.ends = true) : after.left = [] :=
  h.streaming.left_of_source_none (h.ended hends)

/-! ## Giving out bytes once -/

/-- A body gives out some bytes once: whoever reads it, in pieces of any sizes, gets them in order, is
told of an end only behind the last of them, and gets nothing from then on. -/
def Yields (b : Body) (content : Bytes) : Prop :=
  ∀ asks : List (Instant × Ask), (∀ ask ∈ asks, ask.2.IsReading) →
    ∃ answers after, b.answers? asks = some (answers, after) ∧ answers.length = asks.length ∧
      delivered answers <+: content ∧
      ∀ before a later, answers = before ++ a :: later → a.ends = true →
        delivered (before ++ [a]) = content ∧ delivered later = []

theorem delivered_cons (a : Answer) (answers : List Answer) :
    delivered (a :: answers) = a.bytes ++ delivered answers :=
  List.flatMap_cons

/-- What readings do to a body that is not captured. -/
structure ReadsAll (b : Body) (answers : List Answer) (after : Body) : Prop where
  streaming : after.Streaming
  closed : after.closed = b.closed
  bytes : delivered answers ++ after.left = b.left
  going : (∀ a ∈ answers, a.ends = false) → b.source ≠ none → after.source ≠ none
  ended : ∀ before a later, answers = before ++ a :: later → a.ends = true →
    delivered (before ++ [a]) = b.left ∧ delivered later = []

theorem Reads.cons {b₁ : Body} (h : Reads b a b₁) (hrest : ReadsAll b₁ answers after) :
    ReadsAll b (a :: answers) after where
  streaming := hrest.streaming
  closed := hrest.closed.trans h.closed
  bytes := by rw [delivered_cons, List.append_assoc, hrest.bytes, h.bytes]
  going hends hs :=
    hrest.going (fun a' ha' => hends a' (List.mem_cons_of_mem _ ha'))
      (h.going (hends a List.mem_cons_self) hs)
  ended before a' later heq hends := by
    cases before with
    | nil =>
      obtain ⟨rfl, rfl⟩ := List.cons.inj heq
      have hleft := h.left_of_ends hends
      have hdelivered : delivered answers ++ after.left = [] := hrest.bytes.trans hleft
      refine ⟨?_, (List.append_eq_nil_iff.mp hdelivered).1⟩
      rw [← h.bytes, hleft]
      rfl
    | cons first before =>
      obtain ⟨rfl, hrests⟩ := List.cons.inj heq
      obtain ⟨hcontent, hlater⟩ := hrest.ended before a' later hrests hends
      rw [List.cons_append, delivered_cons, hcontent, h.bytes]
      exact ⟨rfl, hlater⟩

/-- A body that is not captured answers any readings by what is left, in order. -/
theorem Streaming.readsAll (h : Streaming b) (hasks : ∀ ask ∈ asks, ask.2.IsReading) :
    ∃ answers after, b.answers? asks = some (answers, after) ∧ answers.length = asks.length ∧
      ReadsAll b answers after := by
  induction asks generalizing b with
  | nil => exact ⟨[], b, rfl, rfl, h, rfl, rfl, fun _ hs => hs, fun before _ _ heq => by simp at heq⟩
  | cons ask asks ih =>
    obtain ⟨a, b₁, ha, hreads⟩ := h.reads (hasks ask List.mem_cons_self) ask.1
    obtain ⟨answers, after, hrest, hlength, hall⟩ :=
      ih hreads.streaming fun ask' hask' => hasks ask' (List.mem_cons_of_mem _ hask')
    exact ⟨a :: answers, after, answers?_cons ha hrest, congrArg (· + 1) hlength, hreads.cons hall⟩

theorem Streaming.yields (h : Streaming b) : b.Yields b.left := by
  intro asks hasks
  obtain ⟨answers, after, hanswers, hlength, hall⟩ := h.readsAll hasks
  exact ⟨answers, after, hanswers, hlength, ⟨after.left, hall.bytes⟩, hall.ended⟩

theorem yields_ofBytes (bytes : Bytes) : (ofBytes bytes).Yields bytes := by
  have hyields := (streaming_ofSource (Source.flows_ofBytes bytes) (some bytes.length)).yields
  rwa [left_ofSource, Source.content_ofBytes] at hyields

/-! ## Handing on what is left -/

/-- The body for the next hop has what was left, and nothing is left here. -/
theorem Streaming.forward (h : Streaming b) :
    b.forward.1.Streaming ∧ b.forward.1.left = b.left ∧
      b.forward.2.Streaming ∧ b.forward.2.left = [] ∧ b.forward.2.closed = b.closed := by
  simp only [Body.forward, h.captured]
  exact ⟨⟨rfl, h.flows, h.pending⟩, rfl, ⟨rfl, nofun, fun _ => rfl⟩, rfl, trivial⟩

/-! ## A captured body -/

/-- A body that keeps some bytes, of which the present cycle has read the front. -/
structure Keeps (b : Body) (kept : Bytes) : Prop where
  captured : b.captured = some kept
  cursor : b.cursor ≤ kept.length

/-- What an ask does to a body that keeps some bytes: it reads on in the present cycle, or it ends it
behind the last byte and begins the next. What is handed on has all of the bytes. -/
structure Replays (kept : Bytes) (b : Body) (a : Answer) (after : Body) : Prop where
  keeps : after.Keeps kept
  ended : a.ends = true → kept.take b.cursor ++ a.bytes = kept ∧ after.cursor = 0
  going : a.ends = false → kept.take b.cursor ++ a.bytes = kept.take after.cursor
  handed : ∀ f, a.handed = some f → f = ofBytes kept

variable {kept : Bytes}

/-- The bytes behind the cursor, or some of them, take the cycle as far as they go. -/
theorem take_append_take_drop (kept : Bytes) (cursor size : Nat) :
    kept.take cursor ++ (kept.drop cursor).take size =
      kept.take (cursor + ((kept.drop cursor).take size).length) := by
  rw [List.take_add, List.length_take, List.append_cancel_left_eq, List.take_eq_take_iff,
    Nat.min_assoc, Nat.min_self]

theorem Keeps.replays_read (h : Keeps b kept) (size : Nat) (now : Instant) :
    ∃ a after, b.answer? now (.read size) = some (a, after) ∧ Replays kept b a after := by
  by_cases hsize : size = 0
  · subst hsize
    exact ⟨_, _, rfl, h, nofun, fun _ => List.append_nil _, nofun⟩
  · by_cases hleft : kept.drop b.cursor = []
    · -- the present cycle is over, and the next begins
      refine ⟨⟨[], true, none⟩, { b with cursor := 0 }, ?_, ⟨h.captured, Nat.zero_le _⟩, ?_, nofun,
        nofun⟩
      · simp only [answer?, Body.read, hsize, if_false, h.captured, hleft]
        simp [hsize]
      · intro _
        rw [List.append_nil, List.take_of_length_le (List.drop_eq_nil_iff.mp hleft)]
        exact ⟨rfl, rfl⟩
    · have hne : (kept.drop b.cursor).take size ≠ [] := by
        rw [Ne, List.take_eq_nil_iff, not_or]
        exact ⟨hsize, hleft⟩
      refine ⟨⟨(kept.drop b.cursor).take size, false, none⟩,
        { b with cursor := b.cursor + ((kept.drop b.cursor).take size).length }, ?_,
        ⟨h.captured, ?_⟩, nofun, fun _ => take_append_take_drop kept b.cursor size, nofun⟩
      · simp only [answer?, Body.read, hsize, if_false, h.captured]
        simp [hsize, hne, hleft]
      · have hcursor := h.cursor
        simp only [List.length_take, List.length_drop]
        omega

theorem Keeps.replays_next (h : Keeps b kept) (now : Instant) :
    ∃ a after, b.answer? now .next = some (a, after) ∧ Replays kept b a after := by
  by_cases hcursor : kept.length ≤ b.cursor
  · refine ⟨⟨[], true, none⟩, { b with cursor := 0 }, ?_, ⟨h.captured, Nat.zero_le _⟩, ?_, nofun,
      nofun⟩
    · simp only [answer?, Body.next, h.captured, hcursor, if_true]
    · intro _
      rw [List.append_nil, List.take_of_length_le hcursor]
      exact ⟨rfl, rfl⟩
  · refine ⟨⟨kept.drop b.cursor, false, none⟩, { b with cursor := kept.length }, ?_,
      ⟨h.captured, Nat.le_refl _⟩, nofun, ?_, nofun⟩
    · simp only [answer?, Body.next, h.captured, hcursor, if_false]
    · intro _
      rw [List.take_append_drop, List.take_length]

/-- A captured body answers every ask. -/
theorem Keeps.replays (h : Keeps b kept) (now : Instant) (ask : Ask) :
    ∃ a after, b.answer? now ask = some (a, after) ∧ Replays kept b a after := by
  cases ask with
  | read size => exact h.replays_read size now
  | readAll =>
    refine ⟨⟨kept.drop b.cursor, true, none⟩, { b with cursor := 0 }, ?_,
      ⟨h.captured, Nat.zero_le _⟩, fun _ => ⟨List.take_append_drop _ _, rfl⟩, nofun, nofun⟩
    simp only [answer?, Body.readAll, h.captured]
  | next => exact h.replays_next now
  | capture =>
    refine ⟨{}, b, ?_, h, nofun, fun _ => List.append_nil _, nofun⟩
    simp only [answer?, Body.capture, h.captured]
  | close =>
    refine ⟨{}, b.close, rfl, ?_, nofun, fun _ => ?_, nofun⟩
    · rw [Body.close]
      split
      · exact h
      · exact ⟨h.captured, h.cursor⟩
    · rw [Body.close]
      split <;> exact List.append_nil _
  | forward =>
    refine ⟨⟨[], false, some (ofBytes kept)⟩, b, ?_, h, nofun, fun _ => List.append_nil _, ?_⟩
    · simp only [answer?, Body.forward, h.captured]
    · rintro f hf
      cases hf
      rfl

/-- Whatever is asked of a captured body, each cycle is all of its bytes, and so is each body that is
handed on. -/
theorem Keeps.replays_all (h : Keeps b kept) (asks : List (Instant × Ask)) :
    ∃ answers after, b.answers? asks = some (answers, after) ∧ after.Keeps kept ∧
      answers.length = asks.length ∧
      (∀ c ∈ cycles (kept.take b.cursor) answers, c = kept) ∧
      ∀ a ∈ answers, ∀ f, a.handed = some f → f = ofBytes kept := by
  induction asks generalizing b with
  | nil => exact ⟨[], b, rfl, h, rfl, nofun, nofun⟩
  | cons ask asks ih =>
    obtain ⟨a, b₁, ha, hreplays⟩ := h.replays ask.1 ask.2
    obtain ⟨answers, after, hrest, hkeeps, hlength, hcycles, hhanded⟩ := ih hreplays.keeps
    refine ⟨a :: answers, after, answers?_cons ha hrest, hkeeps, congrArg (· + 1) hlength, ?_, ?_⟩
    · rw [cycles]
      cases hends : a.ends with
      | true =>
        obtain ⟨hcycle, hcursor⟩ := hreplays.ended hends
        rw [hcursor, List.take_zero] at hcycles
        rw [if_pos rfl, hcycle]
        rintro c hc
        rcases List.mem_cons.mp hc with rfl | hc
        · rfl
        · exact hcycles c hc
      | false =>
        rw [if_neg Bool.false_ne_true, hreplays.going hends]
        exact hcycles
    · intro a' ha'
      rcases List.mem_cons.mp ha' with rfl | ha'
      · exact hreplays.handed
      · exact hhanded a' ha'

/-! ## Any asks -/

/-- Where a body without kept bytes is captured, it keeps what is left, if it still has its source. -/
theorem Streaming.answer?_capture (h : Streaming b) (now : Instant) :
    (b.source = none ∧ b.answer? now .capture = some ({}, b)) ∨
    (b.source ≠ none ∧ ∃ after, b.answer? now .capture = some ({}, after) ∧ after.Keeps b.left ∧
      after.cursor = 0) := by
  cases hs : b.source with
  | none =>
    left
    refine ⟨rfl, ?_⟩
    simp only [answer?, Body.capture, h.captured, hs]
  | some s =>
    right
    obtain ⟨finish, rest, hcollect⟩ := Source.collect_of_flows (h.flows s hs) now b.pending
    have hleft : b.left = b.pending ++ s.content := by
      rw [left, hs]
      rfl
    refine ⟨nofun, { b with source := none, pending := [], captured := some b.left, cursor := 0 }, ?_,
      ⟨rfl, Nat.zero_le _⟩, rfl⟩
    simp only [answer?, Body.capture, h.captured, hs, hcollect, hleft]

/-- A body that is not captured answers every ask. -/
theorem Streaming.exists_answer (h : Streaming b) (now : Instant) (ask : Ask) :
    ∃ a after, b.answer? now ask = some (a, after) ∧
      (after.Streaming ∨ ∃ kept, after.Keeps kept) := by
  cases ask with
  | read size =>
    obtain ⟨a, after, ha, hreads⟩ := h.reads_read size now
    exact ⟨a, after, ha, .inl hreads.streaming⟩
  | readAll =>
    obtain ⟨a, after, ha, hreads⟩ := h.reads_readAll now
    exact ⟨a, after, ha, .inl hreads.streaming⟩
  | next =>
    obtain ⟨a, after, ha, hreads⟩ := h.reads_next now
    exact ⟨a, after, ha, .inl hreads.streaming⟩
  | capture =>
    rcases h.answer?_capture now with ⟨-, ha⟩ | ⟨-, after, ha, hkeeps, -⟩
    · exact ⟨_, _, ha, .inl h⟩
    · exact ⟨_, _, ha, .inr ⟨_, hkeeps⟩⟩
  | close =>
    refine ⟨_, _, rfl, .inl ?_⟩
    rw [Body.close]
    split
    · exact h
    · exact ⟨h.captured, nofun, fun _ => rfl⟩
  | forward => exact ⟨_, _, rfl, .inl h.forward.2.2.1⟩

theorem Streaming.exists_answers (h : Streaming b) (asks : List (Instant × Ask)) :
    ∃ answers after, b.answers? asks = some (answers, after) := by
  induction asks generalizing b with
  | nil => exact ⟨[], b, rfl⟩
  | cons ask asks ih =>
    obtain ⟨a, b₁, ha, hstreaming | ⟨kept, hkeeps⟩⟩ := h.exists_answer ask.1 ask.2
    · obtain ⟨answers, after, hrest⟩ := ih hstreaming
      exact ⟨_, _, answers?_cons ha hrest⟩
    · obtain ⟨answers, after, hrest, -⟩ := hkeeps.replays_all asks
      exact ⟨_, _, answers?_cons ha hrest⟩

/-- What an ask has done to a body that was not captured. -/
theorem Streaming.answer?_cases (h : Streaming b) {b₁ : Body}
    (ha : b.answer? now ask = some (a, b₁)) :
    (ask ≠ .forward ∧ Reads b a b₁) ∨ (ask = .capture ∧ ∃ kept, b₁.Keeps kept) ∨ ask = .close ∨
    (ask = .forward ∧ b₁.Streaming ∧ b₁.left = []) := by
  by_cases hask : ask.IsReading
  · obtain ⟨a', b₁', ha', hreads⟩ := h.reads hask now
    cases ha.symm.trans ha'
    exact .inl ⟨fun hforward => by rw [hforward] at hask; exact hask, hreads⟩
  · cases ask with
    | read _ => exact absurd trivial hask
    | readAll => exact absurd trivial hask
    | next => exact absurd trivial hask
    | capture =>
      rcases h.answer?_capture now with ⟨-, ha'⟩ | ⟨-, after, ha', hkeeps, -⟩
      · -- without its source the body has nothing to keep, and nothing changes
        cases ha.symm.trans ha'
        exact .inl ⟨nofun, h, rfl, rfl, nofun, fun _ hs => hs⟩
      · cases ha.symm.trans ha'
        exact .inr (.inl ⟨rfl, _, hkeeps⟩)
    | close => exact .inr (.inr (.inl rfl))
    | forward =>
      cases ha
      obtain ⟨-, -, hstreaming, hleft, -⟩ := h.forward
      exact .inr (.inr (.inr ⟨rfl, hstreaming, hleft⟩))

/-- What is left of a body that is neither captured nor closed: what it has not delivered, unless it
has handed that on. -/
theorem Streaming.left_of_answers? (h : Streaming b) (hasks : ∀ ask ∈ asks, ask.2 ≠ .close)
    (hrun : b.answers? asks = some (answers, after)) (hcaptured : after.captured = none) :
    after.Streaming ∧
      ((∀ ask ∈ asks, ask.2 ≠ .forward) → delivered answers ++ after.left = b.left) ∧
      ((∃ ask ∈ asks, ask.2 = .forward) → after.left = []) := by
  induction asks generalizing b answers with
  | nil =>
    cases hrun
    exact ⟨h, fun _ => rfl, fun hforward => by simp at hforward⟩
  | cons ask asks ih =>
    obtain ⟨a, b₁, rest, ha, hrest, rfl⟩ := exists_of_answers?_cons hrun
    have hlater : ∀ ask ∈ asks, ask.2 ≠ .close :=
      fun later hmem => hasks later (List.mem_cons_of_mem _ hmem)
    rcases h.answer?_cases ha with
      ⟨hne, hreads⟩ | ⟨-, kept, hkeeps⟩ | hclose | ⟨hforward, hstreaming, hleft⟩
    · obtain ⟨hstreaming, hdelivered, hhanded⟩ := ih hreads.streaming hlater hrest
      refine ⟨hstreaming, fun hno => ?_, fun ⟨later, hmem, heq⟩ => ?_⟩
      · rw [delivered_cons, List.append_assoc,
          hdelivered fun later hmem => hno later (List.mem_cons_of_mem _ hmem), hreads.bytes]
      · rcases List.mem_cons.mp hmem with rfl | hmem
        · exact absurd heq hne
        · exact hhanded ⟨later, hmem, heq⟩
    · -- a captured body stays captured
      obtain ⟨_, _, hrest', hkeeps', -⟩ := hkeeps.replays_all asks
      cases hrest.symm.trans hrest'
      rw [hkeeps'.captured] at hcaptured
      cases hcaptured
    · exact absurd hclose (hasks ask List.mem_cons_self)
    · obtain ⟨hstreaming', hdelivered, hhanded⟩ := ih hstreaming hlater hrest
      refine ⟨hstreaming', fun hno => absurd hforward (hno ask List.mem_cons_self), fun _ => ?_⟩
      by_cases hagain : ∃ later ∈ asks, later.2 = .forward
      · exact hhanded hagain
      · have hnothing : delivered rest ++ after.left = [] :=
          (hdelivered fun later hmem heq => hagain ⟨later, hmem, heq⟩).trans hleft
        exact (List.append_eq_nil_iff.mp hnothing).2

/-! ## Reading, capturing and handing on -/

/-- A captured body gives out the same bytes again and again: whatever is asked of it, each cycle is
all of them, and each body that it hands on gives them out once. -/
def Repeats (b : Body) (kept : Bytes) : Prop :=
  b.captured = some kept ∧ ∀ asks : List (Instant × Ask),
    ∃ answers after, b.answers? asks = some (answers, after) ∧ answers.length = asks.length ∧
      after.captured = some kept ∧ (∀ c ∈ cycles [] answers, c = kept) ∧
      ∀ a ∈ answers, ∀ handed, a.handed = some handed → handed.Yields kept

theorem Keeps.repeats (h : Keeps b kept) (hcursor : b.cursor = 0) : b.Repeats kept := by
  refine ⟨h.captured, fun asks => ?_⟩
  obtain ⟨answers, after, hanswers, hkeeps, hlength, hcycles, hhanded⟩ := h.replays_all asks
  rw [hcursor, List.take_zero] at hcycles
  refine ⟨answers, after, hanswers, hlength, hkeeps.captured, hcycles, ?_⟩
  intro a ha handed heq
  rw [hhanded a ha handed heq]
  exact yields_ofBytes kept

/-- **A body delivers its content once, and what it captures again and again.** Whoever reads a body
gets its content in order and an end only behind it. If it is captured before an end, it keeps what
was not delivered, and repeats that. As long as it is neither captured nor closed, what was not
delivered is what the next hop gets, and this body then has nothing. -/
theorem delivers_content {source : Source} (h : source.Flows) (length : Option Nat) :
    let body := ofSource source length
    body.Yields source.content ∧
    (∀ asks answers b, (∀ ask ∈ asks, ask.2.IsReading) → body.answers? asks = some (answers, b) →
      (∀ a ∈ answers, a.ends = false) → ∀ now, ∃ captured,
        b.answer? now .capture = some ({}, captured) ∧
        captured.Repeats (source.content.drop (delivered answers).length)) ∧
    ∀ asks, ∃ answers b, body.answers? asks = some (answers, b) ∧
      ((∀ ask ∈ asks, ask.2 ≠ .close) → b.captured = none →
        b.forward.1.Yields
          (if ∃ ask ∈ asks, ask.2 = .forward then []
            else source.content.drop (delivered answers).length) ∧
        b.forward.2.Yields []) := by
  intro body
  have hstart : Streaming body := streaming_ofSource h length
  have hleft : body.left = source.content := left_ofSource source length
  refine ⟨hleft ▸ hstart.yields, ?_, ?_⟩
  · intro asks answers b hasks hrun hgoing now
    obtain ⟨_, _, hrun', -, hall⟩ := hstart.readsAll hasks
    cases hrun.symm.trans hrun'
    have hsource : b.source ≠ none := hall.going hgoing nofun
    have hrest : source.content.drop (delivered answers).length = b.left := by
      rw [← hleft, ← hall.bytes, List.drop_left]
    rcases hall.streaming.answer?_capture now with ⟨hs, -⟩ | ⟨-, captured, ha, hkeeps, hcursor⟩
    · exact absurd hs hsource
    · exact ⟨captured, ha, hrest ▸ hkeeps.repeats hcursor⟩
  · intro asks
    obtain ⟨answers, b, hrun⟩ := hstart.exists_answers asks
    refine ⟨answers, b, hrun, fun hasks hcaptured => ?_⟩
    obtain ⟨hstreaming, hdelivered, hhanded⟩ := hstart.left_of_answers? hasks hrun hcaptured
    obtain ⟨hnext, hnextLeft, hhere, hhereLeft, -⟩ := hstreaming.forward
    have hrest : b.left = if ∃ ask ∈ asks, ask.2 = .forward then []
        else source.content.drop (delivered answers).length := by
      split
      · next hforward => exact hhanded hforward
      · next hforward =>
        rw [← hleft, ← hdelivered fun ask hmem heq => hforward ⟨ask, hmem, heq⟩, List.drop_left]
    exact ⟨hrest ▸ hnextLeft ▸ hnext.yields, hhereLeft ▸ hhere.yields⟩

/-- A stream of three bytes in two pieces, with other frames and a pause between them. -/
def threeBytes : Source where
  chunks := [.frame (.data [0x61, 0x62]), .frame .trailers, .frame (.data []), .delay 5,
    .frame (.data [0x63])]

/-- Captured behind its first byte, a body keeps the other two. -/
theorem delivers_content_threeBytes :
    threeBytes.Flows ∧ ∃ b, (ofSource threeBytes none).answers? [(0, .read 1)] =
        some ([{ bytes := [0x61] }], b) ∧
      ∃ captured, b.answer? 7 .capture = some ({}, captured) ∧ captured.Repeats [0x62, 0x63] := by
  have hflows : threeBytes.Flows := by
    refine ⟨fun c hc => ?_, fun _ _ => rfl⟩
    simp only [threeBytes, List.mem_cons, List.not_mem_nil, or_false] at hc
    rcases hc with rfl | rfl | rfl | rfl | rfl <;> trivial
  have hread : (ofSource threeBytes none).answers? [(0, .read 1)] =
      some ([{ bytes := [0x61] }], { ofSource threeBytes none with
        source := some { threeBytes with
          chunks := [.frame .trailers, .frame (.data []), .delay 5, .frame (.data [0x63])] }
        pending := [0x62] }) := by
    cbv
  refine ⟨hflows, _, hread, ?_⟩
  refine (delivers_content hflows none).2.1 [(0, .read 1)] _ _ ?_ hread ?_ 7
  · intro ask hask
    rw [List.mem_singleton.mp hask]
    trivial
  · intro a ha
    rw [List.mem_singleton.mp ha]

end Gatehouse.Body
